import PropCatalog.Proofs.Json.Reading
import PropCatalog.Proofs.Occurrence
import PropCatalog.Proofs.Related
import PropCatalog.Settings.Loading

/-! Settings that are written into a file are read back from it. They are also read from any other
object that gives them, in whatever order and between whatever other members; those that it does not
give are the standard ones. -/

namespace PropCatalog.Settings

open Json (Plain)

/-- Settings are encoded as a plain value. -/
theorem plain_json (settings : Settings) : Plain settings.json := by
  -- All members are texts, truth values or lists of texts.
  have texts (values : List String) : Plain (.array (values.map .string)) :=
    .array (List.forall_mem_map.2 fun value _ => .string value)
  refine .object (List.forall_mem_cons.2 ⟨texts settings.includes, ?_⟩)
  refine List.forall_mem_cons.2 ⟨texts settings.ignores, ?_⟩
  refine List.forall_mem_cons.2 ⟨.bool settings.ignoreTestFiles, ?_⟩
  exact List.forall_mem_singleton.2 (texts settings.validatorModules)

/-- The texts of an array are read back. -/
theorem texts?_map_string (values : List String) :
    Json.texts? (.array (values.map .string)) = some values := by
  -- Each text is read back.
  have inverse : ∀ value, Json.text? (.string value) = some value := fun _ => rfl
  exact mapM_map_of_inverse inverse values

/-! ## Settings among other members -/

/-- The members of the object that settings are encoded as. -/
def members (settings : Settings) : List (String × Json) :=
  [ ("includes", .array (settings.includes.map .string)),
    ("ignores", .array (settings.ignores.map .string)),
    ("ignoreTestFiles", .bool settings.ignoreTestFiles),
    ("validatorModules", .array (settings.validatorModules.map .string)) ]

/-- The members have the names of the settings, each of them once. -/
theorem distinct_members (settings : Settings) : (settings.members.map Prod.fst).Nodup := by
  -- The names do not hang on the settings.
  have names : fieldNames.Nodup := by decide
  exact names

/-- Settings with the standard ones in place of all that have none of some names. -/
def only (settings : Settings) (names : List String) : Settings where
  includes := if "includes" ∈ names then settings.includes else standard.includes
  ignores := if "ignores" ∈ names then settings.ignores else standard.ignores
  ignoreTestFiles :=
    if "ignoreTestFiles" ∈ names then settings.ignoreTestFiles else standard.ignoreTestFiles
  validatorModules :=
    if "validatorModules" ∈ names then settings.validatorModules else standard.validatorModules

/-- With the settings of all names, none is a standard one. -/
theorem only_fieldNames (settings : Settings) : settings.only fieldNames = settings := rfl

/-- Whether the settings among the members of an object are those of some names, in any order and
each of them once. -/
def Gives (given : List (String × Json)) (settings : Settings) (names : List String) : Prop :=
  (given.filter (·.1 ∈ fieldNames)).Perm (settings.members.filter (·.1 ∈ names))

/-- Settings that are encoded are all given. -/
theorem gives_members (settings : Settings) : Gives settings.members settings fieldNames :=
  List.Perm.refl _

namespace Gives

variable {given : List (String × Json)} {settings : Settings} {names : List String}

/-- A setting is found among the members when its name is one of those that are given. -/
theorem lookup_eq (gives : Gives given settings names) {name : String}
    (field : name ∈ fieldNames) :
    given.lookup name = if name ∈ names then settings.members.lookup name else none := by
  -- Members with other names are passed over, and the order of the others makes no difference.
  have distinct : ((settings.members.filter (·.1 ∈ names)).map Prod.fst).Nodup :=
    settings.distinct_members.sublist (List.filter_sublist.map Prod.fst)
  rw [← lookup_filter (· ∈ fieldNames) (by simpa using field),
    ← lookup_perm gives.symm distinct name]
  split
  · rename_i asked
    exact lookup_filter (· ∈ names) (by simpa using asked)
  · rename_i other
    exact lookup_filter_eq_none (· ∈ names) (by simpa using other)

/-- No setting is given twice. -/
theorem hasNoRepeats (gives : Gives given settings names) : hasNoRepeats given = true := by
  -- No name stands twice among the members that are encoded, and only some of these are given.
  rw [Settings.hasNoRepeats, List.all_eq_true]
  intro name field
  have own : given.filter (·.1 == name) =
      (given.filter (·.1 ∈ fieldNames)).filter (·.1 == name) := by
    rw [List.filter_filter]
    refine List.filter_congr fun member _ => ?_
    by_cases same : member.1 = name <;> simp [same, field]
  have single : (settings.members.filter (·.1 == name)).length ≤ 1 := by
    have once := List.nodup_iff_count_le_one.1 settings.distinct_members name
    rw [List.count, List.countP_map, List.countP_eq_length_filter] at once
    exact once
  rw [own, (gives.filter _).length_eq, decide_eq_true_iff]
  exact ((List.filter_sublist.filter _).length_le).trans single

/-- A setting that is given is read as it is, and another one is the standard one. -/
theorem fieldOr?_eq {α : Type} (gives : Gives given settings names) (name : String)
    (field : name ∈ fieldNames) {value : Json} (own : settings.members.lookup name = some value)
    {read? : Json → Option α} {result : α} (inverse : read? value = some result) (other : α) :
    fieldOr? given name other read? = some (if name ∈ names then result else other) := by
  -- A setting that is not given is not among the members, whatever it is.
  rw [fieldOr?, gives.lookup_eq field, own]
  by_cases asked : name ∈ names
  · rw [if_pos asked, if_pos asked]
    exact inverse
  · rw [if_neg asked, if_neg asked]

/-- All settings are read from members that give some of them. -/
theorem ofMembers?_eq (gives : Gives given settings names) :
    ofMembers? given = some (settings.only names) := by
  -- The settings are read one after the other, and none of them fails.
  have includes := gives.fieldOr?_eq "includes" (by decide) rfl
    (texts?_map_string settings.includes) standard.includes
  have ignores := gives.fieldOr?_eq "ignores" (by decide) rfl
    (texts?_map_string settings.ignores) standard.ignores
  have truth : Json.bool? (.bool settings.ignoreTestFiles) = some settings.ignoreTestFiles := rfl
  have ignoreTestFiles := gives.fieldOr?_eq "ignoreTestFiles" (by decide) rfl truth
    standard.ignoreTestFiles
  have validatorModules := gives.fieldOr?_eq "validatorModules" (by decide) rfl
    (texts?_map_string settings.validatorModules) standard.validatorModules
  rw [ofMembers?, if_pos gives.hasNoRepeats, includes, ignores, ignoreTestFiles, validatorModules]
  rfl

/-- So they are from any text of an object with such members. -/
theorem read?_eq (gives : Gives given settings names) {text : String}
    (object : Json.read? text = some (.object given)) :
    read? text = some (settings.only names) := by
  -- What is read from the text are members that give the settings.
  rw [read?, object]
  exact gives.ofMembers?_eq

end Gives

/-! ## Settings that are written -/

/-- The text of settings is read as the settings it was made of, also when spaces follow. -/
theorem read?_pretty (settings : Settings) {spaces : String}
    (blank : spaces.toList.all Json.isSpace) :
    read? (settings.json.pretty ++ spaces) = some settings := by
  -- All settings are given, so no standard one stands in for another.
  rw [settings.gives_members.read?_eq (Json.read?_pretty settings.plain_json blank),
    only_fieldNames]

/-- The text of a settings file says the settings it was made of. -/
theorem read?_fileText (settings : Settings) : read? settings.fileText = some settings :=
  settings.read?_pretty (by decide)

/-- A file with settings that are accepted is read. -/
theorem ofFile_fileText {disk : Disk} {path : Path} {settings : Settings}
    (text : disk.text? path = some settings.fileText) (accepted : settings.check = .ok ()) :
    ofFile disk path = .ok settings := by
  -- The text is there, it is read back, and the check accepts what it says.
  rw [ofFile, text]
  dsimp only
  rw [settings.read?_fileText]
  dsimp only
  rw [accepted]
  rfl

/-- Settings that are written are read back as they were. An object that gives some of them, in any
order and between any other members, is read as these settings with the standard ones for all that
it leaves out, however it is spelled; so it is when it is written in the same way. -/
theorem read?_written (settings : Settings) :
    (∀ spaces : String, spaces.toList.all Json.isSpace →
      read? (settings.json.pretty ++ spaces) = some settings) ∧
    ∀ names given, Gives given settings names →
      (∀ text, Json.read? text = some (.object given) →
        read? text = some (settings.only names)) ∧
      ((∀ member ∈ given, Plain member.2) → ∀ spaces : String, spaces.toList.all Json.isSpace →
        read? ((Json.object given).pretty ++ spaces) = some (settings.only names)) := by
  -- Both texts are read as values first, and the members decide.
  refine ⟨fun spaces => settings.read?_pretty, fun names given gives => ⟨?_, ?_⟩⟩
  · intro text object
    exact gives.read?_eq object
  · intro plain spaces blank
    exact gives.read?_eq (Json.read?_pretty (.object plain) blank)

namespace Leaving

/-- Settings of which a file leaves some out. -/
def settings : Settings where
  includes := ["src"]
  ignores := ["**/A/**"]
  ignoreTestFiles := false
  validatorModules := ["own-types"]

/-- An object with two of the settings, the later one first, and a member that is none, twice. -/
def given : List (String × Json) :=
  [("level", .number "1.5"), ("ignoreTestFiles", .bool false),
    ("ignores", .array [.string "**/A/**"]), ("level", .object [("includes", .null)])]

/-- A text of the object, in which a letter is escaped. -/
def text : String :=
  "\x7b\"level\": 1.5,\n\"ignoreTestFiles\":false , \"ignores\": [\"**/\\u0041/**\"]," ++
    "\"level\": \x7b\"includes\": null\x7d\x7d"

theorem object : Json.read? text = some (.object given) := by
  -- The escaped letter is undone by the tokens, which are those of the object.
  have split : Json.tokens? text.toList = some (Json.object given).tokens := by decide +kernel
  rw [Json.read?, split]
  cbv

theorem gives : Gives given settings ["ignores", "ignoreTestFiles"] :=
  List.Perm.swap _ _ _

end Leaving

/-- Two settings are read from a text, and the other two are the standard ones. -/
theorem read?_written_leaving :
    Gives Leaving.given Leaving.settings ["ignores", "ignoreTestFiles"] ∧
    Json.read? Leaving.text = some (.object Leaving.given) ∧
    read? Leaving.text = some (Leaving.settings.only ["ignores", "ignoreTestFiles"]) ∧
    Leaving.settings.only ["ignores", "ignoreTestFiles"] =
      { standard with ignores := ["**/A/**"], ignoreTestFiles := false } :=
  ⟨Leaving.gives, Leaving.object,
    ((read?_written Leaving.settings).2 _ _ Leaving.gives).1 _ Leaving.object, rfl⟩

end PropCatalog.Settings
