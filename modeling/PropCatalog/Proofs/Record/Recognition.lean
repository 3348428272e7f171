import PropCatalog.Proofs.Record.Filling
import PropCatalog.Proofs.Record.Finishing
import PropCatalog.Proofs.Scope.Lookup

/-! The further modules whose exports count as validators. Which ones a project names is seen in the
props whose values come from these modules, and nowhere else in a record, unless one of these values
is read for ever: then there are no records at all. -/

namespace PropCatalog

open Syntax

namespace Analysis

/-- The same file in a project that names other modules. -/
def withModules (analysis : Analysis) (modules : List String) : Analysis :=
  { analysis with validatorModules := modules }

/-- No value that a component declares for a prop, in its own literal or in one that is spread
there, comes from a module of validators of one project that is none of the other. -/
def Indifferent (analysis : Analysis) (modules : List String) (component : Component)
    (name : String) : Prop :=
  ∀ literal property value origin, analysis.declaredProps? component = some literal →
    analysis.scope.Offers literal property → analysis.scope.propertyName? property = some name →
    property.value? = some value → analysis.scope.origin? value = some origin →
    isValidatorModule analysis.validatorModules origin = isValidatorModule modules origin

variable (analysis : Analysis) (modules : List String) (component : Component)
  {keep : String → Bool}

/-- The types of validators do not hang on the modules that they come from. -/
theorem type?_withModules : (analysis.withModules modules).type? = analysis.type? := by
  -- The modules are not asked about at any depth.
  have within : ∀ depth, (analysis.withModules modules).typeWithin? depth =
      analysis.typeWithin? depth := by
    intro depth
    induction depth with
    | zero => rfl
    | succ depth ih =>
      funext e
      simp only [typeWithin?, ih]
      rfl
  funext e
  exact congrFun (within _) e

/-- A value from a module that is one of validators in both projects or in none has the same type in
both. -/
theorem propType?_withModules {value : Expr}
    (same : ∀ origin, analysis.scope.origin? value = some origin →
      isValidatorModule analysis.validatorModules origin = isValidatorModule modules origin) :
    (analysis.withModules modules).propType? value = analysis.propType? value := by
  -- Only the question whether it is a validator is asked of the modules.
  have recognized :
      (analysis.withModules modules).isValidator value = analysis.isValidator value := by
    cases known : analysis.scope.origin? value with
    | none => simp [isValidator, withModules, known]
    | some origin => simp [isValidator, withModules, known, same origin known]
  simp only [propType?, recognized, type?_withModules]
  rfl

/-- Under names that the projects do not tell apart, a component declares props of the same types in
the same order. -/
theorem only_typed_withModules
    (indifferent : ∀ name, keep name = true → analysis.Indifferent modules component name) :
    (analysis.typed component).only keep =
      ((analysis.withModules modules).typed component).only keep := by
  -- The name is found in the scope alone, and so is the type under a name that is looked at.
  have same : (analysis.withModules modules).declaredProps? component =
      analysis.declaredProps? component := rfl
  rw [typed, typed, same]
  cases declared : analysis.declaredProps? component with
  | none => simp only [Option.map_none, Option.getD_none]
  | some literal =>
    refine @Scope.only_expand_congr _ analysis.scope _ _ _ _ fun property offered => ?_
    cases property with
    | pair start key value =>
      simp only [typedProp?]
      have sameName : (analysis.withModules modules).scope.keyName? key =
          analysis.scope.keyName? key := rfl
      rw [sameName]
      cases named : analysis.scope.keyName? key with
      | none => rfl
      | some name =>
        by_cases kept : keep name = true
        · rw [propType?_withModules analysis modules fun origin found =>
            indifferent name kept literal _ value origin declared offered named rfl found]
        · cases analysis.propType? value <;>
            cases (analysis.withModules modules).propType? value <;> simp [Option.filter, kept]
    | shorthand span text =>
      simp only [typedProp?]
      by_cases kept : keep text = true
      · rw [propType?_withModules analysis modules fun origin found =>
          indifferent text kept literal _ (.name span text) origin declared offered rfl rfl found]
      · cases analysis.propType? (.name span text) <;>
          cases (analysis.withModules modules).propType? (.name span text) <;>
          simp [Option.filter, kept]
    | _ => rfl

/-- Under names that the projects do not tell apart, records have the same props in the same order,
whatever facets are filled in. -/
theorem only_record_withModules
    (indifferent : ∀ name, keep name = true → analysis.Indifferent modules component name)
    (facets : List Facet) :
    (analysis.record facets component).props.only keep =
      ((analysis.withModules modules).record facets component).props.only keep := by
  -- Types are the same where it matters, and descriptions are the same everywhere.
  induction facets using List.reverseRecOn with
  | nil => simp only [record, List.foldl_nil]
  | append_singleton facets facet ih =>
    rw [record_concat, record_concat]
    cases facet with
    | types =>
      rw [fill_types, fill_types]
      refine OrderedMap.only_foldl_write_congr _ ?_ ih
      exact only_typed_withModules analysis modules component indifferent
    | comments =>
      have same : (analysis.withModules modules).described component =
          analysis.described component := rfl
      rw [fill_comments, fill_comments, same]
      exact OrderedMap.only_foldl_write_congr _ rfl ih
    | displayName => simpa only [fill] using ih
    | description => simpa only [fill] using ih

/-- Projects do not tell a name apart when they do not in any literal of a list that holds the one
in which each component declares its props, and all that are spread. -/
theorem indifferent_of_closed {first : ObjectLiteral} {literals : List ObjectLiteral}
    {name : String}
    (declared : ∀ component ∈ analysis.components, analysis.declaredProps? component = some first)
    (start : first ∈ literals)
    (closed : ∀ outer ∈ literals, analysis.scope.targets outer ⊆ literals)
    (same : ∀ inner ∈ literals, ∀ property ∈ inner.properties,
      analysis.scope.propertyName? property = some name →
        ∀ origin ∈ property.value?.bind analysis.scope.origin?,
          isValidatorModule analysis.validatorModules origin = isValidatorModule modules origin) :
    ∀ component ∈ analysis.components, analysis.Indifferent modules component name := by
  -- Every literal within reach is in the list.
  intro component found
  rintro literal property value origin own ⟨-, inner, reached, member⟩ named valued leads
  cases (declared component found).symm.trans own
  have known : inner ∈ literals := reached.mem_of_closed start closed
  refine same inner known property member named origin ?_
  rw [valued]
  exact leads

/-- What is read for ever in one project is read for ever in the other. -/
theorem endless_withModules {value : Expr} :
    (analysis.withModules modules).Endless value ↔ analysis.Endless value := by
  -- What is read inside of a validator hangs on its arguments and on their types.
  have same : (analysis.withModules modules).readInside (analysis.withModules modules).type? =
      analysis.readInside analysis.type? := by
    rw [type?_withModules]
    rfl
  rw [Endless, Endless, same]

/-- A component declares the same values in both projects. -/
theorem declares_withModules {value : Expr} :
    (analysis.withModules modules).Declares component value ↔
      analysis.Declares component value := by
  -- Only what is picked from the literals that are gone through hangs on the modules.
  have same (literal : ObjectLiteral) :
      analysis.scope.expanded (analysis.withModules modules).typedProp? literal =
        analysis.scope.expanded analysis.typedProp? literal := Scope.expanded_eq _ _ literal
  constructor
  · rintro ⟨literal, inner, property, declared, within, found⟩
    exact ⟨literal, inner, property, declared, same literal ▸ within, found⟩
  · rintro ⟨literal, inner, property, declared, within, found⟩
    exact ⟨literal, inner, property, declared, (same literal).symm ▸ within, found⟩

/-- Two records of a component in different projects say the same but for the props whose values
come from a module that is one of validators in one of the projects only. -/
structure SameBesides (analysis : Analysis) (modules : List String) (component : Component)
    (record record' : Record) : Prop where
  displayName : record.displayName = record'.displayName
  description : record.description = record'.description
  /-- A prop is in both records or in none, with the same type and description, required or not. -/
  props : ∀ name, analysis.Indifferent modules component name →
    record.props.get? name = record'.props.get? name
  /-- It has the same place among all such props. -/
  places : ∀ keep : String → Bool,
    (∀ name, keep name = true → analysis.Indifferent modules component name) →
      record.props.only keep = record'.props.only keep

/-- The records of a component in two projects say the same but for what comes from a module that
only one of them takes for one of validators. -/
theorem sameBesides_record (facets : List Facet) :
    analysis.SameBesides modules component (analysis.record facets component)
      ((analysis.withModules modules).record facets component) where
  displayName := (displayName_record analysis component facets).trans
    (displayName_record (analysis.withModules modules) component facets).symm
  description := (description_record analysis component facets).trans
    (description_record (analysis.withModules modules) component facets).symm
  props := by
    -- A single name is looked at.
    intro name indifferent
    have alone : ∀ found, (found == name) = true → analysis.Indifferent modules component found :=
      fun found same => (beq_iff_eq.mp same) ▸ indifferent
    have only := only_record_withModules analysis modules component alone facets
    exact OrderedMap.get?_eq_of_only only (beq_self_eq_true name)
  places := fun _ indifferent =>
    only_record_withModules analysis modules component indifferent facets

/-- Two projects that name different further modules of validators find the same components in a
file. In either of them there are no records exactly when types are to be filled in and a component
declares a value that is read for ever and is a validator there. Where both have records, each
component has one in either of them, with the same shown name and description; and a prop none of
whose values comes from a module that one of them names and the other does not is in both records or
in none, with the same type and description, required or not, and in the same place among all such
props. -/
theorem record_modules_congr (file : SourceFile) (modules others : List String)
    (facets : List Facet) :
    let analysis := ofFile file modules
    let other := ofFile file others
    analysis.components = other.components ∧
    (analysis.records? facets = none ↔ .types ∈ facets ∧ ∃ component ∈ analysis.components,
      ∃ value, analysis.Declares component value ∧ analysis.isValidator value = true ∧
        analysis.Endless value) ∧
    (other.records? facets = none ↔ .types ∈ facets ∧ ∃ component ∈ analysis.components,
      ∃ value, analysis.Declares component value ∧ other.isValidator value = true ∧
        analysis.Endless value) ∧
    ∀ records records', analysis.records? facets = some records →
      other.records? facets = some records' →
      records = analysis.components.map (analysis.record facets) ∧
      records' = analysis.components.map (other.record facets) ∧
      ∀ component ∈ analysis.components, analysis.SameBesides others component
        (analysis.record facets component) (other.record facets component) := by
  -- Only the modules of validators are changed, and these decide about types alone.
  intro analysis other
  have changed : other = analysis.withModules others := rfl
  refine ⟨rfl, records?_eq_none_iff, ?_, fun records records' finished finished' =>
    ⟨records?_eq_some finished, records?_eq_some finished', fun component _ => ?_⟩⟩
  · -- The components, the values that they declare and what is read for ever are the same.
    rw [records?_eq_none_iff, changed]
    simp only [declares_withModules, endless_withModules]
    rfl
  · exact sameBesides_record analysis others component facets

namespace Foreign

/-- The literal `{ ...Props, b: X.number, c: P.bool }`. -/
def base : ObjectLiteral where
  span := ⟨66, 102⟩
  properties := [.spread (.name ⟨71, 76⟩ "Props"),
    .pair 78 (.name "b") (.member ⟨81, 89⟩ (.name ⟨81, 82⟩ "X") (.name "number")),
    .pair 91 (.name "c") (.member ⟨94, 100⟩ (.name ⟨94, 95⟩ "P") (.name "bool"))]

/-- The literal `{ b: X.shape(), a: P.string, ...Base }`. -/
def props : ObjectLiteral where
  span := ⟨118, 156⟩
  properties := [
    .pair 120 (.name "b")
      (.call ⟨123, 132⟩ (.member ⟨123, 130⟩ (.name ⟨123, 124⟩ "X") (.name "shape")) []),
    .pair 134 (.name "a") (.member ⟨137, 145⟩ (.name ⟨137, 138⟩ "P") (.name "string")),
    .spread (.name ⟨150, 154⟩ "Base")]

/-- A module with a component whose props are declared by two literals that spread each other, one
prop by validators from a module of its own. -/
def file : SourceFile where
  text := "import P from 'prop-types';\nimport X from 'x-types';\n" ++
    "const Base = \x7b ...Props, b: X.number, c: P.bool \x7d;\n" ++
    "const Props = \x7b b: X.shape(), a: P.string, ...Base \x7d;\n" ++
    "class Button \x7b render() \x7b\x7d\n  static propTypes = Props \x7d"
  module := ⟨[
    .importDecl ⟨0, 27⟩ false (some "prop-types") ["P"],
    .importDecl ⟨28, 52⟩ false (some "x-types") ["X"],
    .stmt (.decl ⟨53, 103⟩ (.variables
      [.mk (.name "Base") (some (.object base.span base.properties))])),
    .stmt (.decl ⟨104, 157⟩ (.variables
      [.mk (.name "Props") (some (.object props.span props.properties))])),
    .stmt (.decl ⟨158, 213⟩ (.class "Button" (.mk none [
      .method false (.name "render") [],
      .field true (.name "propTypes") (some (.name ⟨206, 211⟩ "Props"))])))]⟩
  comments := []

/-- The names of the props in each record with their types. -/
def shown (records : List Record) : List (List (String × Option String)) :=
  records.map fun record =>
    record.props.toList.map fun (name, entry) => (name, entry.type.map PropType.display)

theorem indifferent : ∀ component ∈ (ofFile file []).components,
    ∀ name, ["a", "c"].contains name = true →
      (ofFile file []).Indifferent ["x-types"] component name := by
  -- The only component declares its props by the second literal, which spreads the first.
  intro component member name kept
  have either : name ∈ ["a", "c"] := by simpa using kept
  exact indifferent_of_closed _ _ (by decide +kernel) (List.mem_cons_self : props ∈ [props, base])
    (by decide +kernel)
    ((by decide +kernel : ∀ name ∈ ["a", "c"], ∀ inner ∈ [props, base],
      ∀ property ∈ inner.properties,
        (ofFile file []).scope.propertyName? property = some name →
          ∀ origin ∈ property.value?.bind (ofFile file []).scope.origin?,
            isValidatorModule (ofFile file []).validatorModules origin =
              isValidatorModule ["x-types"] origin) name either) component member

end Foreign

/-- The prop that one of the projects knows other validators for changes its type and its place, and
the other props stay as they are. -/
theorem record_modules_congr_foreign :
    let analysis := ofFile Foreign.file []
    let other := ofFile Foreign.file ["x-types"]
    (∀ component ∈ analysis.components, ∀ name, ["a", "c"].contains name = true →
      analysis.Indifferent ["x-types"] component name) ∧
    ∃ records records', analysis.records? Facet.all = some records ∧
      other.records? Facet.all = some records' ∧
      Foreign.shown records =
        [[("b", some "custom(X.number)"), ("a", some "string"), ("c", some "bool")]] ∧
      Foreign.shown records' =
        [[("a", some "string"), ("b", some "number"), ("c", some "bool")]] ∧
      ∀ component ∈ analysis.components,
        (analysis.record Facet.all component).props.only ["a", "c"].contains =
          (other.record Facet.all component).props.only ["a", "c"].contains := by
  -- Both runs come to an end.
  intro analysis other
  obtain ⟨records, finished⟩ := Option.isSome_iff_exists.mp
    (by decide +kernel : (analysis.records? Facet.all).isSome = true)
  obtain ⟨records', finished'⟩ := Option.isSome_iff_exists.mp
    (by decide +kernel : (other.records? Facet.all).isSome = true)
  obtain ⟨-, -, -, congr⟩ := record_modules_congr Foreign.file [] ["x-types"] Facet.all
  obtain ⟨rfl, rfl, same⟩ := congr records records' finished finished'
  have quoted : Foreign.file.quote ⟨81, 89⟩ = "X.number" := by
    rw [SourceFile.quote_eq
      (ofList_append_eq (ofList_append_eq (ofList_append_eq rfl rfl) rfl) rfl)]
    decide +kernel
  have unknown : Foreign.shown (analysis.records Facet.all) =
      [[("b", some (PropType.custom (Foreign.file.quote ⟨81, 89⟩)).display), ("a", some "string"),
        ("c", some "bool")]] := by with_unfolding_all rfl
  exact ⟨Foreign.indifferent, _, _, finished, finished', unknown.trans (by rw [quoted]; decide),
    by decide +kernel, fun component member =>
      (same component member).places _ (Foreign.indifferent component member)⟩

namespace Leaking

/-- The literal `{ child: T.shape(node), other: P.string }`, which is bound to the name in it. -/
def node : ObjectLiteral where
  span := ⟨60, 101⟩
  properties := [
    .pair 62 (.name "child")
      (.call ⟨69, 82⟩ (.member ⟨69, 76⟩ (.name ⟨69, 70⟩ "T") (.name "shape"))
        [.item (.name ⟨77, 81⟩ "node")]),
    .pair 84 (.name "other") (.member ⟨91, 99⟩ (.name ⟨91, 92⟩ "P") (.name "string"))]

/-- A module with a component of which one prop is a shape that contains itself, from a module of
its own, and another one comes from the usual module. -/
def file : SourceFile where
  text := "import T from 't';\nimport P from 'prop-types';\n" ++
    "const node = \x7b child: T.shape(node), other: P.string \x7d;\n" ++
    "class Button \x7b render() \x7b\x7d\n  static propTypes = node \x7d"
  module := ⟨[
    .importDecl ⟨0, 18⟩ false (some "t") ["T"],
    .importDecl ⟨19, 46⟩ false (some "prop-types") ["P"],
    .stmt (.decl ⟨47, 102⟩ (.variables
      [.mk (.name "node") (some (.object node.span node.properties))])),
    .stmt (.decl ⟨103, 157⟩ (.class "Button" (.mk none [
      .method false (.name "render") [],
      .field true (.name "propTypes") (some (.name ⟨151, 155⟩ "node"))])))]⟩
  comments := []

theorem indifferent : ∀ component ∈ (ofFile file []).components,
    (ofFile file []).Indifferent ["t"] component "other" :=
  -- The only component declares its props by the literal, which spreads nothing.
  indifferent_of_closed _ _ (by decide +kernel) (List.mem_singleton_self node) (by decide +kernel)
    (by decide +kernel)

end Leaking

/-- A prop from the usual module is gone from a project that names the module of another prop: the
validator of this one contains itself, so that the whole run has no end there. -/
theorem records?_modules_leaking :
    let analysis := ofFile Leaking.file []
    let other := ofFile Leaking.file ["t"]
    (∀ component ∈ analysis.components, analysis.Indifferent ["t"] component "other") ∧
    (∃ records, analysis.records? Facet.all = some records ∧
      Foreign.shown records =
        [[("child", some "custom(T.shape(node))"), ("other", some "string")]]) ∧
    other.records? Facet.all = none := by
  -- In one project the validator is not read at all, in the other one it is read for ever.
  intro analysis other
  obtain ⟨records, finished⟩ := Option.isSome_iff_exists.mp
    (by decide +kernel : (analysis.records? Facet.all).isSome = true)
  obtain rfl := records?_eq_some finished
  have quoted : Leaking.file.quote ⟨69, 82⟩ = "T.shape(node)" := by
    rw [SourceFile.quote_eq (ofList_append_eq (ofList_append_eq rfl rfl) rfl)]
    decide +kernel
  have unknown : Foreign.shown (analysis.records Facet.all) =
      [[("child", some (PropType.custom (Leaking.file.quote ⟨69, 82⟩)).display),
        ("other", some "string")]] := rfl
  exact ⟨Leaking.indifferent, ⟨_, finished, unknown.trans (by rw [quoted]; decide)⟩,
    Option.isNone_iff_eq_none.mp (by decide +kernel)⟩

end Analysis

end PropCatalog
