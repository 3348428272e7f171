import PropCatalog.Proofs.Kinship.Value
import PropCatalog.Record.Spread

/-! Literals that correspond expand to the same names in the same order, with values that are
related as those of their properties are. -/

namespace PropCatalog

open Syntax

variable {α β : Type}

/-- Two entries are alike when they have the same name and their values are related. -/
def EntryAlike (r : α → β → Prop) (entry : String × α) (entry' : String × β) : Prop :=
  entry.1 = entry'.1 ∧ r entry.2 entry'.2

/-- Two maps are alike when their entries are, one after the other. -/
def OrderedMap.Alike (r : α → β → Prop) (map : OrderedMap α) (map' : OrderedMap β) : Prop :=
  List.Forall₂ (EntryAlike r) map.toList map'.toList

section Maps

variable {r : α → β → Prop}

/-- An entry that is inserted into entries that are alike takes the same place. -/
theorem insertEntry_alike (name : String) {value : α} {value' : β} (values : r value value')
    {entries : List (String × α)} {entries' : List (String × β)}
    (alike : List.Forall₂ (EntryAlike r) entries entries') :
    List.Forall₂ (EntryAlike r) (insertEntry name value entries)
      (insertEntry name value' entries') := by
  -- The walk passes the same names in both.
  induction alike with
  | nil => exact .cons ⟨rfl, values⟩ .nil
  | @cons entry entry' rest rest' here others ih =>
    rcases entry with ⟨known, old⟩
    rcases entry' with ⟨_, old'⟩
    obtain ⟨rfl, olds⟩ := here
    simp only [insertEntry]
    split
    · exact .cons ⟨rfl, values⟩ others
    · exact .cons ⟨rfl, olds⟩ ih

namespace OrderedMap.Alike

variable {map : OrderedMap α} {map' : OrderedMap β}

theorem empty : OrderedMap.Alike r .empty .empty :=
  List.Forall₂.nil

theorem insert (alike : map.Alike r map') (name : String) {value : α} {value' : β}
    (values : r value value') : (map.insert name value).Alike r (map'.insert name value') :=
  insertEntry_alike name values alike

theorem insertAll (alike : map.Alike r map') {others : OrderedMap α} {others' : OrderedMap β}
    (further : others.Alike r others') :
    (map.insertAll others).Alike r (map'.insertAll others') := by
  -- The entries are inserted one by one.
  refine List.rel_foldl (R := EntryAlike r) (P := OrderedMap.Alike r) ?_ alike further
  rintro map map' alike ⟨name, value⟩ ⟨_, value'⟩ ⟨rfl, values⟩
  exact alike.insert name values

theorem get? (alike : map.Alike r map') (name : String) :
    Option.Rel r (map.get? name) (map'.get? name) :=
  rel_lookup_self alike name

/-- Changes that take related values to related ones keep maps alike. -/
theorem update (alike : map.Alike r map') (name : String) {initial : α} {initial' : β}
    (initials : r initial initial') {change : α → α} {change' : β → β}
    (changes : ∀ value value', r value value' → r (change value) (change' value')) :
    (map.update name initial change).Alike r (map'.update name initial' change') :=
  alike.insert name (changes _ _ (rel_getD (alike.get? name) initials))

end OrderedMap.Alike

end Maps

variable {file other : SourceFile}

/-- Two lists of expanded literals are alike when the literals are matched and their entries alike.
-/
def ExpansionsAlike (m : Matching file other) (r : α → β → Prop) :
    Expansions α → Expansions β → Prop :=
  List.Forall₂ fun expanded expanded' =>
    m.literal expanded.1 expanded'.1 ∧ expanded.2.Alike r expanded'.2

/-- Two results of an expansion are alike when the entries and the literals expanded so far are. -/
structure ExpandedAlike (m : Matching file other) (r : α → β → Prop)
    (expanded : OrderedMap α × Expansions α) (expanded' : OrderedMap β × Expansions β) : Prop where
  entries : expanded.1.Alike r expanded'.1
  expansions : ExpansionsAlike m r expanded.2 expanded'.2

variable {k : Kinship file other}

/-- Two ways to read properties are akin when they read entries that are akin from properties that
are. -/
def PicksAkin (k : Kinship file other) (r : α → β → Prop)
    (pick? : Property → Option (String × α)) (pick'? : Property → Option (String × β)) : Prop :=
  ∀ property property', property.Akin k property' →
    Option.Rel (EntryAlike r) (pick? property) (pick'? property')

namespace Scope.Akin

variable {scope scope' : Scope} {r : α → β → Prop} {pick? : Property → Option (String × α)}
  {pick'? : Property → Option (String × β)}

/-- A property adds entries that are akin, when literals that correspond are expanded akin. -/
theorem addEntries (akin : scope.Akin k scope') (picks : PicksAkin k r pick? pick'?)
    {expand : ObjectLiteral → Expansions α → OrderedMap α × Expansions α}
    {expand' : ObjectLiteral → Expansions β → OrderedMap β × Expansions β}
    (expands : ∀ literal literal' expansions expansions', k.Corresponds literal literal' →
      ExpansionsAlike k.toMatching r expansions expansions' →
        ExpandedAlike k.toMatching r (expand literal expansions) (expand' literal' expansions'))
    {before : OrderedMap α × Expansions α} {before' : OrderedMap β × Expansions β}
    (sofar : ExpandedAlike k.toMatching r before before') {property property' : Property}
    (properties : property.Akin k property') :
    ExpandedAlike k.toMatching r (scope.addEntries pick? expand before property)
      (scope'.addEntries pick'? expand' before' property') := by
  -- A spread adds what its literal expands to, and any other property the entry it is read as.
  rcases before with ⟨entries, expansions⟩
  rcases before' with ⟨entries', expansions'⟩
  obtain ⟨entriesAkin, expansionsAkin⟩ := sofar
  have picked := picks property property' properties
  cases properties with
  | @spread e e' akin' =>
    have literals := akin.object? akin'
    simp only [Scope.addEntries]
    generalize scope.object? e = literal, scope'.object? e' = literal' at literals
    cases literals with
    | none => exact ⟨entriesAkin, expansionsAkin⟩
    | some corresponds =>
      have expanded := expands _ _ _ _ corresponds expansionsAkin
      exact ⟨entriesAkin.insertAll expanded.entries, expanded.expansions⟩
  | _ =>
    simp only [Scope.addEntries]
    generalize pick? _ = entry, pick'? _ = entry' at picked
    cases picked with
    | none => exact ⟨entriesAkin, expansionsAkin⟩
    | @some entry entry' same =>
      rcases entry with ⟨name, value⟩
      rcases entry' with ⟨_, value'⟩
      obtain ⟨rfl, values⟩ := same
      exact ⟨entriesAkin.insert name values, expansionsAkin⟩

/-- In any number of levels, literals that correspond expand akin. -/
theorem expandWithin (akin : scope.Akin k scope') (picks : PicksAkin k r pick? pick'?)
    (levels : Nat) {path path' : List ObjectLiteral} (paths : List.Forall₂ k.literal path path')
    {literal literal' : ObjectLiteral} (corresponds : k.Corresponds literal literal')
    {expansions : Expansions α} {expansions' : Expansions β}
    (sofar : ExpansionsAlike k.toMatching r expansions expansions') :
    ExpandedAlike k.toMatching r (scope.expandWithin pick? levels path literal expansions)
      (scope'.expandWithin pick'? levels path' literal' expansions') := by
  -- Both expansions stop at the same literal, or go on one level further down.
  have known := rel_lookup (Matching.beq_eq corresponds.matched) sofar
  induction levels generalizing path path' literal literal' expansions expansions' with
  | zero => exact ⟨rel_getD known .empty, sofar⟩
  | succ levels ih =>
    simp only [Scope.expandWithin]
    generalize expansions.lookup literal = found, expansions'.lookup literal' = found' at known
    cases known with
    | some entries => exact ⟨entries, sofar⟩
    | none =>
      simp only [Matching.contains_eq corresponds.matched paths]
      split
      · exact ⟨.empty, sofar⟩
      · have expanded : ExpandedAlike k.toMatching r
            (literal.properties.foldl (scope.addEntries pick?
              (scope.expandWithin pick? levels (literal :: path))) (.empty, expansions))
            (literal'.properties.foldl (scope'.addEntries pick'?
              (scope'.expandWithin pick'? levels (literal' :: path'))) (.empty, expansions')) := by
          refine List.rel_foldl (R := Property.Akin k) (P := ExpandedAlike k.toMatching r) ?_
            ⟨.empty, sofar⟩ corresponds.properties.forall₂
          intro before before' sofar property property' properties
          refine akin.addEntries picks ?_ sofar properties
          intro inner inner' expansions expansions' corresponds' sofar
          exact ih (.cons corresponds.matched paths) corresponds' sofar
            (rel_lookup (Matching.beq_eq corresponds'.matched) sofar)
        exact ⟨expanded.entries, .cons ⟨corresponds.matched, expanded.entries⟩ expanded.expansions⟩

/-- Literals that correspond have entries that are akin. -/
theorem expand (akin : scope.Akin k scope') (picks : PicksAkin k r pick? pick'?)
    {literal literal' : ObjectLiteral} (corresponds : k.Corresponds literal literal') :
    (scope.expand pick? literal).Alike r (scope'.expand pick'? literal') :=
  (akin.expandWithin picks depthLimit .nil corresponds .nil).entries

end Scope.Akin

end PropCatalog
