import PropCatalog.Proofs.Report.Decoding

/-! A catalog can be recovered from its JSON text. -/

namespace PropCatalog

open Json (Plain)

/-! ## Catalogs are encoded as plain values -/

/-- A text that may be missing makes a plain member. -/
theorem Json.plain_textMember? (name : String) (text : Option String) :
    ∀ member ∈ textMember? name text, Plain member.2 := by
  -- A text that is missing makes no member.
  cases text with
  | none => simp [textMember?]
  | some text => simpa [textMember?] using Plain.string text

theorem EnumMember.plain_json (member : EnumMember) : Plain member.json :=
  .object (by simpa [EnumMember.json] using ⟨Plain.string member.text, Plain.bool member.computed⟩)

namespace PropType

mutual

theorem plain_members : ∀ type : PropType, ∀ member ∈ type.members, Plain member.2
  | .simple _ => by simpa [members] using Plain.string _
  | .enum members => by
    have each : ∀ item ∈ members.map EnumMember.json, Plain item :=
      List.forall_mem_map.2 fun member _ => member.plain_json
    simpa [PropType.members] using ⟨Plain.string _, Plain.array each⟩
  | .union types => by
    simpa [members] using ⟨Plain.string _, Plain.array (plain_jsonItems types)⟩
  | .arrayOf item | .objectOf item => by
    simpa [members] using ⟨Plain.string _, Plain.object (plain_members item)⟩
  | .shape fields => by
    simpa [members] using ⟨Plain.string _, Plain.object (plain_fieldMembers fields)⟩
  | .enumText text | .unionText text | .instanceOf text | .shapeText text | .custom text => by
    simpa [members] using ⟨Plain.string _, Plain.string text⟩

theorem plain_jsonItems : ∀ types : List PropType, ∀ item ∈ jsonItems types, Plain item
  | [] => by simp [jsonItems]
  | type :: rest => by
    simpa [jsonItems] using ⟨Plain.object (plain_members type), plain_jsonItems rest⟩

theorem plain_fieldMembers : ∀ fields : List ShapeField, ∀ member ∈ fieldMembers fields,
    Plain member.2
  | [] => by simp [fieldMembers]
  | .mk name type required description :: rest => by
    have field : Plain (.object (type.members ++ facets required description)) := by
      refine .object
        (List.forall_mem_append.2 ⟨plain_members type, List.forall_mem_cons.2 ⟨?_, ?_⟩⟩)
      · exact .bool required
      · exact Json.plain_textMember? _ description
    exact List.forall_mem_cons.2 ⟨field, plain_fieldMembers rest⟩

end

theorem plain_json (type : PropType) : Plain type.json :=
  .object type.plain_members

end PropType

theorem PropEntry.plain_json (entry : PropEntry) : Plain entry.json := by
  -- A type is plain where there is one, and so is what is known besides.
  refine .object (List.forall_mem_append.2 ⟨?_, List.forall_mem_cons.2 ⟨?_, ?_⟩⟩)
  · cases entry.type with
    | none => simp
    | some type => simpa using type.plain_json
  · exact .bool entry.required
  · exact Json.plain_textMember? _ entry.description

theorem Record.plain_json (record : Record) : Plain record.json := by
  -- A member is left out or plain, and so are the props in it.
  refine .object (List.forall_mem_append.2 ⟨List.forall_mem_append.2 ⟨?_, ?_⟩, ?_⟩)
  · exact Json.plain_textMember? _ record.displayName
  · exact Json.plain_textMember? _ record.description
  · split
    · simp
    · refine List.forall_mem_singleton.2 (.object (List.forall_mem_map.2 ?_))
      exact fun prop _ => prop.2.plain_json

theorem FileRecords.plain_member (file : FileRecords) : Plain file.member.2 :=
  .array (List.forall_mem_map.2 fun record _ => record.plain_json)

/-! ## What a catalog says about each path -/

namespace Catalog

/-- The last file of each path, in the order in which the paths first come. -/
def latest (catalog : Catalog) : List FileRecords :=
  (catalog.files.map FileRecords.path).eraseDups.filterMap fun path =>
    catalog.files.reverse.find? (·.path == path)

/-- Where all paths are different, no file is left out. -/
theorem latest_eq_of_nodup {catalog : Catalog}
    (distinct : (catalog.files.map FileRecords.path).Nodup) :
    catalog.latest = catalog.files := by
  -- The search for a path finds a file with it, and there is no other one.
  rw [latest, eraseDups_eq_self distinct, List.filterMap_map]
  refine (List.filterMap_congr fun file member => ?_).trans List.filterMap_some
  cases found : catalog.files.reverse.find? (·.path == file.path) with
  | none =>
    have passed := List.find?_eq_none.1 found file (List.mem_reverse.2 member)
    simp at passed
  | some other =>
    have among := List.mem_reverse.1 (List.mem_of_find?_eq_some found)
    have path : other.path = file.path := by simpa using List.find?_some found
    rw [List.inj_on_of_nodup_map distinct among member path] at found
    exact found

/-- A lookup among the members that encode files finds the first file of a path. -/
theorem lookup_map_member (files : List FileRecords) (path : String) :
    ((files.map FileRecords.member).lookup path).map (path, ·) =
      (files.find? (·.path == path)).map FileRecords.member := by
  -- Both searches go past the files of other paths.
  induction files with
  | nil => rfl
  | cons file rest ih =>
    by_cases same : file.path = path
    · simp [FileRecords.member, same]
    · have other : (path == file.path) = false := beq_eq_false_iff_ne.2 (Ne.symm same)
      simp only [FileRecords.member, List.map_cons, List.lookup_cons, other, List.find?_cons,
        beq_eq_false_iff_ne.2 same]
      exact ih

/-- A catalog is encoded as the last file of each path. -/
theorem json_eq (catalog : Catalog) :
    catalog.json = .object (catalog.latest.map FileRecords.member) := by
  -- The map of members has the paths in their order, each with its last file.
  have entries : (OrderedMap.ofList (catalog.files.map FileRecords.member)).toList =
      catalog.latest.map FileRecords.member := by
    rw [OrderedMap.toList_eq_filterMap, OrderedMap.names_ofList, latest, List.map_filterMap,
      List.map_map]
    refine List.filterMap_congr fun path _ => ?_
    rw [OrderedMap.get?_ofList, ← List.map_reverse]
    exact lookup_map_member catalog.files.reverse path
  exact congrArg Json.object entries

theorem plain_json (catalog : Catalog) : Plain catalog.json := by
  -- All members are those of files.
  rw [json_eq]
  exact .object (List.forall_mem_map.2 fun file _ => file.plain_member)

/-- What is decoded from a catalog is the last file of each path. -/
theorem filesOfJson?_json (catalog : Catalog) :
    filesOfJson? catalog.json = some catalog.latest := by
  -- Each member is decoded to the file that it is made of.
  rw [json_eq]
  exact mapM_map_of_inverse FileRecords.ofMember?_member catalog.latest

/-- The report as JSON is one value and a line end, and reading and decoding it gives the last file
of each path with everything that is known about its components. So two catalogs have one report
only if they agree on all of this. -/
theorem jsonText_lossless (catalog : Catalog) :
    (∃ text, catalog.jsonText = text ++ "\n" ∧ Json.read? text = some catalog.json) ∧
      (Json.read? catalog.jsonText).bind filesOfJson? = some catalog.latest ∧
      ∀ other : Catalog, catalog.jsonText = other.jsonText ↔ catalog.latest = other.latest := by
  -- The text is that of a plain value, which is read back and decoded.
  have value : Json.read? catalog.json.pretty = some catalog.json := by
    -- No spaces follow the value itself.
    have blank : ("" : String).toList.all Json.isSpace := rfl
    simpa using Json.read?_pretty catalog.plain_json blank
  have decoded (catalog : Catalog) :
      (Json.read? catalog.jsonText).bind filesOfJson? = some catalog.latest := by
    rw [jsonText, Json.read?_pretty catalog.plain_json (by decide)]
    exact catalog.filesOfJson?_json
  refine ⟨⟨catalog.json.pretty, rfl, value⟩, decoded catalog, fun other => ⟨?_, ?_⟩⟩
  · intro same
    have both := decoded catalog
    rw [same, decoded other] at both
    exact (Option.some.inj both).symm
  · intro same
    rw [jsonText, jsonText, json_eq, json_eq, same]

end Catalog

end PropCatalog
