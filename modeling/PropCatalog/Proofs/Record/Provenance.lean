import PropCatalog.Proofs.Record.Filling
import PropCatalog.Proofs.Spread.Sources
import PropCatalog.Proofs.Validator.Quotation

/-! Where the types in a record come from: each is read, together with whether the prop is required,
from one property within reach of the declared props, and all of its texts are given in the source.
-/

namespace PropCatalog

open Syntax

/-- What is known about a prop has the type that it is made of, and the requiredness beside it. -/
theorem PropEntry.typed_of? {type? : Option (PropType × Bool)} {description : Option String}
    {entry : PropEntry} (known : PropEntry.of? type? description = some entry) :
    entry.type = type?.map Prod.fst ∧ entry.required = (type?.map Prod.snd).getD false := by
  cases type? <;> cases description <;> simp [PropEntry.of?] at known <;> simp [← known]

/-- A property gives a validator a name: one with a key that spells it, or a name alone, which is
its own validator. -/
inductive Scope.Declares (scope : Scope) (name : String) : Property → Expr → Prop where
  | pair {start : Nat} {key : Key} {validator : Expr} (spelled : scope.keyName? key = some name) :
      Declares scope name (.pair start key validator) validator
  | shorthand {span : Span} : Declares scope name (.shorthand span name) (.name span name)

namespace Analysis

variable {analysis : Analysis} {type : PropType}

/-- A property declares a prop with the type of the validator that it gives the name. -/
theorem exists_of_typedProp? {property : Property} {name : String} {value : PropType × Bool}
    (declared : analysis.typedProp? property = some (name, value)) :
    ∃ validator, analysis.scope.Declares name property validator ∧
      analysis.propType? validator = some value := by
  -- The name and the validator are those of a pair, or a shorthand is both.
  cases property with
  | pair start key validator =>
    simp only [typedProp?, Option.bind_eq_some_iff, Option.map_eq_some_iff] at declared
    obtain ⟨_, spelled, _, found, same⟩ := declared
    obtain ⟨rfl, rfl⟩ := Prod.mk.inj same
    exact ⟨validator, .pair spelled, found⟩
  | shorthand span text =>
    simp only [typedProp?, Option.map_eq_some_iff] at declared
    obtain ⟨_, found, same⟩ := declared
    obtain ⟨rfl, rfl⟩ := Prod.mk.inj same
    exact ⟨.name span text, .shorthand, found⟩
  | _ => simp [typedProp?] at declared

/-- A type of a declared prop is one that some property within reach of the declared props gives. -/
theorem exists_of_get?_typed {component : Component} {name : String} {value : PropType × Bool}
    (known : (analysis.typed component).get? name = some value) :
    ∃ literal property validator, analysis.declaredProps? component = some literal ∧
      analysis.scope.Offers literal property ∧ analysis.scope.Declares name property validator ∧
      analysis.propType? validator = some value := by
  -- The entry comes from a property within reach of the literal that declares the props.
  unfold typed at known
  cases declared : analysis.declaredProps? component with
  | none => simp [declared, OrderedMap.get?, OrderedMap.empty] at known
  | some literal =>
    simp only [declared, Option.map_some, Option.getD_some] at known
    obtain ⟨property, offered, given⟩ := Scope.exists_offers_of_get?_expand known
    obtain ⟨validator, declares, read⟩ := exists_of_typedProp? given
    exact ⟨literal, property, validator, rfl, offered, declares, read⟩

/-- A prop in a record has no type and is not required, or both are what one property within reach
of the declared props gives, whatever facets have been filled in. -/
theorem exists_of_mem_record {facets : List Facet} {component : Component} {name : String}
    {entry : PropEntry} (member : (name, entry) ∈ (analysis.record facets component).props.toList) :
    (entry.type = none ∧ entry.required = false) ∨
      ∃ type literal property validator, entry.type = some type ∧
        analysis.declaredProps? component = some literal ∧
        analysis.scope.Offers literal property ∧ analysis.scope.Declares name property validator ∧
        analysis.propType? validator = some (type, entry.required) := by
  -- The entry is made of what the declared props say about its name.
  have known := OrderedMap.get?_of_mem _ member
  rw [get?_record] at known
  cases typed : (if .types ∈ facets then (analysis.typed component).get? name else none) with
  | none =>
    rw [typed] at known
    exact .inl (PropEntry.typed_of? known)
  | some value =>
    rw [typed] at known
    obtain ⟨type, required⟩ := PropEntry.typed_of? known
    have declared : (analysis.typed component).get? name = some value := by
      split at typed
      · exact typed
      · cases typed
    obtain ⟨literal, property, validator, leads, offered, declares, read⟩ :=
      exists_of_get?_typed declared
    refine .inr ⟨value.1, literal, property, validator, type, leads, offered, declares, ?_⟩
    rw [read, required]
    rfl

/-- Validators can describe the type that one of them gives a prop. Only a type that is known can
make the prop required. -/
theorem readable_of_propType? {validator : Expr} {required : Bool}
    (found : analysis.propType? validator = some (type, required)) :
    analysis.Readable type ∧ required = (! type.isCustom && validator.isRequired) := by
  -- A validator is read, and any other value is quoted and custom.
  simp only [propType?, Option.map_eq_some_iff] at found
  obtain ⟨read, found, same⟩ := found
  obtain ⟨rfl, rfl⟩ := Prod.mk.inj same
  refine ⟨?_, rfl⟩
  split at found
  · exact readable_of_type? found
  · exact Option.some.inj found ▸ .custom (.quote validator)

/-- All texts of a type in a record are given in the source, whatever facets have been filled in. -/
theorem allGiven_of_mem_record {facets : List Facet} {component : Component}
    {prop : String × PropEntry} (member : prop ∈ (analysis.record facets component).props.toList)
    (typed : prop.2.type = some type) : analysis.AllGiven type := by
  -- A type in a record has been read from a validator or quotes one.
  rcases exists_of_mem_record member with ⟨none, -⟩ | ⟨read, _, _, validator, some, _, _, _, found⟩
  · simp [none] at typed
  · obtain rfl := Option.some.inj (some.symm.trans typed)
    exact (readable_of_propType? found).1.allGiven

end Analysis

end PropCatalog
