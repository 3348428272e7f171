import PropCatalog.Proofs.Record.Amending
import PropCatalog.Proofs.Spread.Sources

/-! What writing types leaves alone. Whatever an object literal spreads, only the types of the props
that come out of it change, and new props come behind all others. -/

namespace PropCatalog

open Syntax

namespace Analysis

variable (analysis : Analysis) (record : Record) (literal : ObjectLiteral)

/-- Some property within reach of a literal gives a prop a type. -/
def Retypes (name : String) : Prop :=
  ∃ property value, analysis.scope.Offers literal property ∧
    analysis.typedProp? property = some (name, value)

/-- What is known about a prop after types have been written: the type that the literal gives it, or
else what was known before. -/
theorem get?_amendTypes (name : String) :
    (analysis.amendTypes record literal).props.get? name =
      match (analysis.scope.expand analysis.typedProp? literal).get? name with
      | some value => some (((record.props.get? name).getD .empty).withType value)
      | none => record.props.get? name := by
  -- A type leaves nothing of the one before.
  rw [amendTypes_eq, OrderedMap.get?_foldl_write_toList fun _ _ _ => rfl]
  cases (analysis.scope.expand analysis.typedProp? literal).get? name <;> rfl

/-- Writing types does not disturb the rest of a record, whether or not the spreads of the literal
form circles, lead nowhere or go too deep. All props stay, in their order and before the new ones.
A prop to which no property within reach gives a type stays as it was. No description changes, and
a new prop has none, and the name and the description of the component stay, too. When the same
types are written again, nothing changes. -/
theorem amendTypes_frame :
    record.props.names <+: (analysis.amendTypes record literal).props.names ∧
    (∀ name, ¬ analysis.Retypes literal name →
      (analysis.amendTypes record literal).props.get? name = record.props.get? name) ∧
    (∀ name entry, (analysis.amendTypes record literal).props.get? name = some entry →
      entry.description = (record.props.get? name).bind PropEntry.description) ∧
    (analysis.amendTypes record literal).displayName = record.displayName ∧
    (analysis.amendTypes record literal).description = record.description ∧
    analysis.amendTypes (analysis.amendTypes record literal) literal =
      analysis.amendTypes record literal := by
  -- The types are written into the entries of their props one by one, and nowhere else.
  refine ⟨?_, fun name untouched => ?_, fun name entry known => ?_, ?_, ?_, ?_⟩
  · rw [amendTypes_eq]
    exact OrderedMap.names_prefix_foldl_write _ _ record.props
  · -- Every entry of the expansion comes from a property within reach.
    have absent : (analysis.scope.expand analysis.typedProp? literal).get? name = none := by
      refine Option.eq_none_iff_forall_ne_some.mpr fun value found => untouched ?_
      obtain ⟨property, offered, given⟩ := Scope.exists_offers_of_get?_expand found
      exact ⟨property, value, offered, given⟩
    rw [get?_amendTypes, absent]
  · rw [get?_amendTypes] at known
    split at known
    · -- The description stands beside the type that is written.
      obtain rfl := Option.some.inj known
      cases record.props.get? name <;> rfl
    · rw [known]
      rfl
  · rw [amendTypes_eq]
  · rw [amendTypes_eq]
  · -- The expansion is the same both times, for it does not look at the record.
    rw [amendTypes_eq, amendTypes_eq, OrderedMap.foldl_write_toList_again fun _ _ _ => rfl]

end Analysis

end PropCatalog
