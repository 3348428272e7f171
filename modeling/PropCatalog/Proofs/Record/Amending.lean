import PropCatalog.Proofs.Spread.Precedence
import PropCatalog.Record.Facet

/-! Writing the entries of an object literal into a record. The literal is expanded to a map first,
which has the effect of writing every entry where it stands. -/

namespace PropCatalog

open Syntax

/-- Without circles, the map that a literal is expanded to stands for the entries of its properties
in place: writing either has the same effect when the last write of a name wins. -/
theorem Scope.exists_foldl_expand {scope : Scope} {literal : ObjectLiteral}
    (acyclic : scope.Acyclic literal) (shallow : scope.Shallow depthLimit literal) :
    ∃ flat, (∀ order, scope.InPlace literal order ↔ order = flat) ∧
      ∀ {α σ : Type} (pick? : Property → Option (String × α)) {write : σ → String × α → σ},
        LastWriteWins write → ∀ state, (scope.expand pick? literal).toList.foldl write state =
          (flat.filterMap pick?).foldl write state := by
  -- The walk with a memory meets the properties as they stand, and the map is made of them.
  obtain ⟨flat, after, walked, expanded⟩ := exists_recalls_expand shallow
  have inPlace : scope.InPlace literal flat :=
    (walked.plainWalk acyclic.cutAlike).inPlace acyclic
  refine ⟨flat, fun order => ⟨fun other => other.unique inPlace, ?_⟩, fun pick? _ wins state => ?_⟩
  · rintro rfl
    exact inPlace
  · rw [expanded, wins.foldl_ofList]

/-- The change of a prop that writes its type and whether it is required. -/
def PropEntry.withType (entry : PropEntry) (value : PropType × Bool) : PropEntry :=
  { entry with type := some value.1, required := value.2 }

namespace Record

variable {β : Type} (change : β → PropEntry → PropEntry)

/-- Changing props one after the other changes the props of the record and nothing else. -/
theorem foldl_updateProp (pairs : List (String × β)) (record : Record) :
    pairs.foldl (fun record (name, value) => record.updateProp name (change value)) record =
      { record with
        props := pairs.foldl
          (.write fun value entry => change value (entry.getD .empty)) record.props } := by
  -- Each change writes one entry of the props.
  induction pairs generalizing record with
  | nil => rfl
  | cons pair rest ih => exact ih _

/-- The last change of a prop wins when it leaves nothing of the changes before it. -/
theorem updateProp_wins
    (settles : ∀ old new entry, change new (change old entry) = change new entry) :
    LastWriteWins fun (record : Record) (pair : String × β) =>
      record.updateProp pair.1 (change pair.2) := by
  -- The record holds its props in a map.
  have wins : LastWriteWins
      (OrderedMap.write fun value entry => change value (entry.getD PropEntry.empty)) :=
    OrderedMap.write_wins _ fun old new entry => settles old new _
  constructor
  · intro record name old new
    exact congrArg (fun props => { record with props }) (wins.again record.props name old new)
  · intro record name old new other value differs
    exact congrArg (fun props => { record with props })
      (wins.apart record.props name old new other value differs)

end Record

namespace Analysis

variable {analysis : Analysis} {literal : ObjectLiteral}

/-- Writing types into a record writes the entries of the expanded literal into its props. -/
theorem amendTypes_eq (record : Record) :
    analysis.amendTypes record literal =
      { record with
        props := (analysis.scope.expand analysis.typedProp? literal).toList.foldl
          (.write fun value entry => (entry.getD .empty).withType value) record.props } :=
  -- The type of a prop is one of the changes of a record.
  Record.foldl_updateProp (fun value entry => entry.withType value) _ record

/-- Writing the types of a literal into a record, when its spreads form no circle and no path of
more than 31 of them: the record is as if every entry had been written where it stands in source
order, with spread literals in place. The last entry of a name decides its type, known names keep
their places, new ones come behind them where they first come, and nothing else of the record
changes. -/
theorem amendTypes_inPlace (acyclic : analysis.scope.Acyclic literal)
    (shallow : analysis.scope.Shallow Scope.depthLimit literal) (record : Record) :
    ∃ flat, (∀ order, analysis.scope.InPlace literal order ↔ order = flat) ∧
      let typed := flat.filterMap analysis.typedProp?
      let amended := analysis.amendTypes record literal
      amended = typed.foldl
        (fun record (name, type, required) => record.setType name type required) record ∧
      amended.props.names = (record.props.names ++ typed.map Prod.fst).eraseDups ∧
      (∀ name, amended.props.get? name =
        match typed.reverse.lookup name with
        | some (type, required) =>
          some { (record.props.get? name).getD .empty with type := some type, required }
        | none => record.props.get? name) ∧
      amended.displayName = record.displayName ∧ amended.description = record.description := by
  -- A type and whether it is required are written together, so nothing of an earlier entry is left.
  obtain ⟨flat, inPlace, writes⟩ := Scope.exists_foldl_expand acyclic shallow
  have settles : ∀ old new (entry : PropEntry),
      (entry.withType old).withType new = entry.withType new := fun _ _ _ => rfl
  have amended := writes analysis.typedProp?
    (Record.updateProp_wins (fun value entry => entry.withType value) settles) record
  have changed := amended.trans (Record.foldl_updateProp (fun value entry => entry.withType value)
    (flat.filterMap analysis.typedProp?) record)
  refine ⟨flat, inPlace, amended, ?_, fun name => ?_, ?_, ?_⟩
  · exact (congrArg (fun record => record.props.names) changed).trans
      (OrderedMap.names_foldl_write _ _ _)
  · refine (congrArg (fun record => record.props.get? name) changed).trans ?_
    refine (OrderedMap.get?_foldl_write _ (fun old new _ => settles old new _) _ _ name).trans ?_
    cases (flat.filterMap analysis.typedProp?).reverse.lookup name <;> rfl
  · exact congrArg (fun record => record.displayName) changed
  · exact congrArg (fun record => record.description) changed

namespace Sharing

/-- The literal `{ x: 'a', y: 'b' }`. -/
def base : ObjectLiteral where
  span := ⟨13, 31⟩
  properties := [.pair 15 (.name "x") (.string ⟨18, 21⟩ "a"),
    .pair 23 (.name "y") (.string ⟨26, 29⟩ "b")]

/-- The literal `{ ...base, x: 'c' }`. -/
def more : ObjectLiteral where
  span := ⟨46, 65⟩
  properties := [.spread (.name ⟨51, 55⟩ "base"), .pair 57 (.name "x") (.string ⟨60, 63⟩ "c")]

/-- The literal `{ ...base, ...more, ...base }`. -/
def all : ObjectLiteral where
  span := ⟨68, 97⟩
  properties := [.spread (.name ⟨73, 77⟩ "base"), .spread (.name ⟨82, 86⟩ "more"),
    .spread (.name ⟨91, 95⟩ "base")]

/-- A module with a literal that is spread more than once and overridden in between. -/
def shared : Analysis where
  file :=
    { text := "const base = \x7b x: 'a', y: 'b' \x7d;\n" ++
        "const more = \x7b ...base, x: 'c' \x7d;\n(\x7b ...base, ...more, ...base \x7d);"
      module := ⟨[]⟩
      comments := [] }
  scope :=
    { bindings := [("more", .value (.object more.span more.properties)),
        ("base", .value (.object base.span base.properties))]
      assignments := [] }
  validatorModules := []

theorem acyclic : shared.scope.Acyclic all := by
  -- Every literal spreads only literals that start before it.
  have start : all ∈ [all, more, base] := by simp
  exact Scope.acyclic_of_falls start (fun literal => literal.span.lo) (by decide +kernel)

theorem shallow : shared.scope.Shallow Scope.depthLimit all := by
  -- Three literals are within reach.
  have three : {inner | shared.scope.Reaches all inner}.encard ≤ [all, more, base].length :=
    Scope.encard_reaches_le (by simp) (by decide +kernel)
  exact Scope.shallow_of_encard_le
    (three.trans (by exact_mod_cast (by decide : 3 ≤ Scope.depthLimit)))

/-- The first literal spreads nothing, wherever it stands. -/
theorem unrolls_base (path : List ObjectLiteral) :
    shared.scope.Unrolls (fun _ _ => False) path base.properties base.properties :=
  .own rfl (.own rfl .nil)

/-- The second one has an entry of its own behind those of the first. -/
theorem unrolls_more (path : List ObjectLiteral) :
    shared.scope.Unrolls (fun _ _ => False) path more.properties
      (base.properties ++ more.properties.drop 1) :=
  .enter (by decide +kernel) not_false (unrolls_base _) (.own rfl .nil)

/-- The literals stand in each other's place as often as they are spread. -/
theorem inPlace_all : shared.scope.InPlace all (base.properties ++
    ((base.properties ++ more.properties.drop 1) ++ (base.properties ++ []))) :=
  .enter (by decide +kernel) not_false (unrolls_base _)
    (.enter (by decide +kernel) not_false (unrolls_more _)
      (.enter (by decide +kernel) not_false (unrolls_base _) .nil))

/-- The types that are written quote the values. -/
theorem display_values :
    (PropType.custom (shared.file.quote ⟨18, 21⟩)).display = "custom('a')" ∧
    (PropType.custom (shared.file.quote ⟨26, 29⟩)).display = "custom('b')" ∧
    (PropType.custom (shared.file.quote ⟨60, 63⟩)).display = "custom('c')" := by
  -- The characters of the text are given, so that nothing has to be decoded.
  refine ⟨?_, ?_, ?_⟩ <;>
  · rw [SourceFile.quote_eq (ofList_append_eq rfl rfl)]
    decide +kernel

end Sharing

/-- The prop that is overridden in between has its first type again in the end, and both props stand
where they came first. -/
theorem amendTypes_inPlace_sharing :
    Sharing.shared.scope.Acyclic Sharing.all ∧
    Sharing.shared.scope.Shallow Scope.depthLimit Sharing.all ∧
    ∃ flat, (∀ order, Sharing.shared.scope.InPlace Sharing.all order ↔ order = flat) ∧
      (flat.filterMap Sharing.shared.typedProp?).map
          (fun (name, type, required) => (name, type.display, required)) =
        [("x", "custom('a')", false), ("y", "custom('b')", false), ("x", "custom('a')", false),
          ("y", "custom('b')", false), ("x", "custom('c')", false), ("x", "custom('a')", false),
          ("y", "custom('b')", false)] ∧
      Sharing.shared.amendTypes .empty Sharing.all =
        (flat.filterMap Sharing.shared.typedProp?).foldl
          (fun record (name, type, required) => record.setType name type required) .empty ∧
      (Sharing.shared.amendTypes .empty Sharing.all).props.toList.map
          (fun (name, entry) => (name, entry.type.map PropType.display, entry.required)) =
        [("x", some "custom('a')", false), ("y", some "custom('b')", false)] := by
  -- The entries in place are those that have been written out.
  obtain ⟨flat, inPlace, amended, -⟩ := amendTypes_inPlace Sharing.acyclic Sharing.shallow .empty
  obtain rfl := (inPlace _).mp Sharing.inPlace_all
  obtain ⟨a, b, c⟩ := Sharing.display_values
  refine ⟨Sharing.acyclic, Sharing.shallow, _, inPlace, ?_, amended, ?_⟩
  · rw [← a, ← b, ← c]
    rfl
  · rw [← a, ← b]
    with_unfolding_all rfl

end Analysis

end PropCatalog
