import PropCatalog.Proofs.Kinship.Scope

/-! Values and origins in scopes that are akin: what an expression leads to has the same form, and
comes from the same module, whatever wrappers stand on the way and however names are spelled. -/

namespace PropCatalog

open Syntax

variable {file other : SourceFile} {k : Kinship file other}

namespace Kinship

/-- Two object literals correspond when they are matched and their properties are akin. -/
structure Corresponds (k : Kinship file other) (literal literal' : ObjectLiteral) : Prop where
  matched : k.literal literal literal'
  properties : PropertiesAkin k literal.properties literal'.properties

/-- Two searches are akin when they find what has the same form and have gone through literals that
are matched. -/
structure SearchAkin (k : Kinship file other) (search search' : Scope.Search) : Prop where
  found : Option.Rel (Expr.SameRule k) search.1 search'.1
  searched : List.Forall₂ k.literal search.2 search'.2

end Kinship

/-- Object literals of the same form correspond. -/
theorem Syntax.Expr.SameRule.object? {e e' : Expr} (same : e.SameRule k e') :
    Option.Rel k.Corresponds e.object? e'.object? := by
  -- Only object literals are found, and these are matched.
  cases same with
  | object matched properties => exact .some ⟨matched, properties⟩
  | _ => exact .none

namespace Scope

/-- A way to find values reads a string as it is. -/
def ReadsStrings (value? : Expr → Option Expr) : Prop :=
  ∀ {e : Expr} {text : String}, e.string? = some text →
    (value? e).bind Expr.literalText? = some text

/-- Two ways to find values are akin when they find values of the same form for expressions that are
akin. Either both read strings as they are, or both find nothing at all: so it is where no step is
left. -/
structure ValuesAkin (k : Kinship file other) (value? value'? : Expr → Option Expr) : Prop where
  found : ∀ e e', e.Akin k e' → Option.Rel (Expr.SameRule k) (value? e) (value'? e')
  strings : ReadsStrings value? ∧ ReadsStrings value'? ∨
    (∀ e, value? e = none) ∧ ∀ e, value'? e = none

/-- Two ways to find properties are akin when they find values of the same form in literals that
correspond. -/
def PropertyValuesAkin (k : Kinship file other)
    (property? property'? : ObjectLiteral → String → Option Expr) : Prop :=
  ∀ literal literal' name, k.Corresponds literal literal' →
    Option.Rel (Expr.SameRule k) (property? literal name) (property'? literal' name)

section Steps

variable {value? value'? : Expr → Option Expr}

/-- What reads strings finds the name of a property that is spelled with one. -/
theorem ReadsStrings.nameOfKey? (reads : ReadsStrings value?) {key : Key} {text : String}
    (spelled : key.textAt? .property = some text) : nameOfKey? value? key = some text := by
  -- A computed key is read as a string, and any other one spells its name itself.
  cases key with
  | name => exact spelled
  | string => exact spelled
  | computed => exact reads spelled
  | _ => cases spelled

/-- What reads strings finds the name of an access that is spelled with one. -/
theorem ReadsStrings.nameOfAccess? (reads : ReadsStrings value?) {key : Key} {text : String}
    (spelled : key.textAt? .access = some text) : nameOfAccess? value? key = some text := by
  -- A computed key is read as a string, and a name spells itself.
  cases key with
  | name => exact spelled
  | computed => exact reads spelled
  | _ => cases spelled

/-- A search that finds no values passes all properties by, whatever their keys spell. -/
theorem searchProperties_of_none (nothing : ∀ e, value? e = none)
    (inside : ObjectLiteral → List ObjectLiteral → Search) (name : String)
    (properties : List Property) (searched : List ObjectLiteral) :
    searchProperties value? inside name properties searched = (none, searched) := by
  -- Whatever a property is named, its value is none.
  induction properties with
  | nil => rfl
  | cons property rest ih =>
    cases property with
    | pair _ _ _ | shorthand _ _ =>
      simp only [searchProperties, nothing, ih, ite_self]
    | spread _ => simp only [searchProperties, nothing, ih, Option.bind_none]
    | _ => exact ih

/-- An access leads nowhere without values, whatever its key spells. -/
theorem followAccess_of_none (scope : Scope) (nothing : ∀ e, value? e = none)
    (property? : ObjectLiteral → String → Option Expr) (object : Expr) (key : Key) :
    scope.followAccess value? property? object key = none := by
  -- Assigned values, static members and properties are all read by finding a value.
  have through (name : String) :
      ((value? object).bind Expr.object?).bind (fun literal => property? literal name) = none := by
    rw [nothing, Option.bind_none, Option.bind_none]
  unfold followAccess
  cases Scope.nameOfAccess? value? key with
  | none => rfl
  | some name =>
    rw [Option.bind_some]
    dsimp only
    split
    · split
      · exact nothing _
      · split
        · exact Option.bind_eq_none_iff.mpr fun _ _ => nothing _
        · exact through name
    · exact through name

/-- Literals that stand for what is akin correspond. -/
theorem ValuesAkin.object? (values : ValuesAkin k value? value'?) {e e' : Expr}
    (akin : e.Akin k e') :
    Option.Rel k.Corresponds ((value? e).bind Expr.object?) ((value'? e').bind Expr.object?) :=
  rel_bind (values.found e e' akin) fun _ _ same => same.object?

/-- What stands for what is akin has the same text. -/
theorem ValuesAkin.literalText? (values : ValuesAkin k value? value'?) {e e' : Expr}
    (akin : e.Akin k e') :
    (value? e).bind Expr.literalText? = (value'? e').bind Expr.literalText? :=
  bind_eq_of_rel (values.found e e' akin) fun _ _ same => same.akin.literalText?

section Strings

variable (values : ValuesAkin k value? value'?) (reads : ReadsStrings value?)
  (reads' : ReadsStrings value'?)

include values reads reads'

/-- Where strings are read as they are, keys of properties that are akin have the same name. -/
theorem ValuesAkin.nameOfKey? {key key' : Key} (keys : key.Akin k .property key') :
    nameOfKey? value? key = nameOfKey? value'? key' := by
  -- A computed key is read as the text that it is, and any other one spells its name itself.
  cases keys with
  | computed akin => exact values.literalText? akin
  | respelled _ spelled spelled' => rw [reads.nameOfKey? spelled, reads'.nameOfKey? spelled']
  | _ => rfl

/-- Where strings are read as they are, keys of accesses that are akin have the same name. -/
theorem ValuesAkin.nameOfAccess? {key key' : Key} (keys : key.Akin k .access key') :
    nameOfAccess? value? key = nameOfAccess? value'? key' := by
  -- A computed key is read as the text that it is, and a name spells itself.
  cases keys with
  | computed akin => exact values.literalText? akin
  | respelled _ spelled spelled' =>
    rw [reads.nameOfAccess? spelled, reads'.nameOfAccess? spelled']
  | _ => rfl

end Strings

/-- Searches through properties that are akin are akin. -/
theorem ValuesAkin.searchProperties (values : ValuesAkin k value? value'?)
    {inside inside' : ObjectLiteral → List ObjectLiteral → Search}
    (insides : ∀ literal literal' searched searched', k.Corresponds literal literal' →
      List.Forall₂ k.literal searched searched' →
        k.SearchAkin (inside literal searched) (inside' literal' searched'))
    (name : String) {properties properties' : List Property}
    (akin : List.Forall₂ (Property.Akin k) properties properties')
    {searched searched' : List ObjectLiteral}
    (related : List.Forall₂ k.literal searched searched') :
    k.SearchAkin (Scope.searchProperties value? inside name properties searched)
      (Scope.searchProperties value'? inside' name properties' searched') := by
  -- Either both modules read strings, or none of them finds any value.
  obtain ⟨reads, reads'⟩ | ⟨nothing, nothing'⟩ := values.strings
  case inr =>
    -- Names may be read in the one module only, but nothing comes of it.
    rw [searchProperties_of_none nothing, searchProperties_of_none nothing']
    exact ⟨.none, related⟩
  -- Both searches end at the same property or go on.
  induction akin generalizing searched searched' with
  | nil => exact ⟨.none, related⟩
  | cons here _ ih =>
    cases here with
    | pair described keys akin =>
      simp only [Scope.searchProperties, values.nameOfKey? reads reads' keys]
      split
      · exact ⟨values.found _ _ akin, related⟩
      · exact ih related
    | shorthand text described =>
      simp only [Scope.searchProperties]
      split
      · exact ⟨values.found _ _ ⟨.name text⟩, related⟩
      · exact ih related
    | @spread e e' akin =>
      simp only [Scope.searchProperties]
      have literals := values.object? akin
      generalize (value? e).bind Expr.object? = found, (value'? e').bind Expr.object? = found'
        at literals
      cases literals with
      | none => exact ih related
      | @some literal literal' corresponds =>
        have within := insides literal literal' searched searched' corresponds related
        simp only
        generalize inside literal searched = ended, inside' literal' searched' = ended' at within
        rcases ended with ⟨result, after⟩
        rcases ended' with ⟨result', after'⟩
        obtain ⟨found, further⟩ := within
        cases found with
        | none => exact ih further
        | some same => exact ⟨.some same, further⟩
    | _ => exact ih related

variable {scope scope' : Scope} {property? property'? : ObjectLiteral → String → Option Expr}

/-- A name leads to what has the same form. -/
theorem Akin.followName (akin : scope.Akin k scope') (values : ValuesAkin k value? value'?)
    (properties : PropertyValuesAkin k property? property'?) (name : String) :
    Option.Rel (Expr.SameRule k) (scope.followName value? property? name)
      (scope'.followName value'? property'? name) := by
  -- Names stand for values or for parts of values, or they lead nowhere.
  unfold Scope.followName
  have bound := akin.get? name
  generalize scope.get? name = binding, scope'.get? name = binding' at bound
  cases bound with
  | none => exact .none
  | some bindings =>
    cases bindings with
    | ofValue akin => exact values.found _ _ akin
    | property akin key =>
      exact rel_bind (values.object? akin) fun _ _ corresponds => properties _ _ key corresponds
    | _ => exact .none

/-- An access leads to what has the same form. -/
theorem Akin.followAccess (akin : scope.Akin k scope') (values : ValuesAkin k value? value'?)
    (properties : PropertyValuesAkin k property? property'?) {object object' : Expr}
    (objects : object.Akin k object') {key key' : Key} (keys : key.Akin k .access key') :
    Option.Rel (Expr.SameRule k) (scope.followAccess value? property? object key)
      (scope'.followAccess value'? property'? object' key') := by
  -- Either both modules read strings, or none of them finds any value.
  obtain ⟨reads, reads'⟩ | ⟨nothing, nothing'⟩ := values.strings
  case inr =>
    rw [followAccess_of_none scope nothing, followAccess_of_none scope' nothing']
    exact .none
  unfold Scope.followAccess
  rw [values.nameOfAccess? reads reads' keys]
  cases Scope.nameOfAccess? value'? key' with
  | none => exact .none
  | some name =>
    simp only [Option.bind_some]
    have through := rel_bind (values.object? objects)
      fun literal literal' corresponds => properties literal literal' name corresponds
    obtain ⟨same⟩ := objects
    generalize object.unwrap = f, object'.unwrap = f' at same
    cases same with
    | name text =>
      -- The same assignment or static member counts, or none does.
      have given := akin.assigned? text name
      have bound := akin.get? text
      simp only
      generalize scope.assigned? text name = value, scope'.assigned? text name = value' at given
      generalize scope.get? text = binding, scope'.get? text = binding' at bound
      cases given with
      | some akin => exact values.found _ _ akin
      | none =>
        cases bound with
        | none => exact through
        | some bindings =>
          cases bindings with
          | «class» definitions =>
            exact rel_bind (definitions.static? name) fun _ _ akin => values.found _ _ akin
          | _ => exact through
    | _ => exact through

end Steps

/-- With a step left, a string is its own value. -/
theorem readsStrings_valueWithin (scope : Scope) (steps : Nat) :
    ReadsStrings (scope.valueWithin (steps + 1)) := by
  -- Neither names nor accesses are followed from it.
  intro e text known
  simp only [valueWithin]
  unfold Expr.string? at known
  cases unwrapped : e.unwrap with
  | string _ _ =>
    rw [unwrapped] at known
    exact known
  | _ =>
    rw [unwrapped] at known
    cases known

variable {scope scope' : Scope}

namespace Akin

/-- In any number of steps, values have the same form and searches are akin. -/
theorem within (akin : scope.Akin k scope') (steps : Nat) :
    ValuesAkin k (scope.valueWithin steps) (scope'.valueWithin steps) ∧
      ∀ name literal literal' searched searched', k.Corresponds literal literal' →
        List.Forall₂ k.literal searched searched' →
          k.SearchAkin (scope.searchWithin steps name literal searched)
            (scope'.searchWithin steps name literal' searched') := by
  -- Each step unwraps what it looks at, and leaves the others fewer steps.
  induction steps with
  | zero =>
    have nothing : ∀ (scope : Scope) e, scope.valueWithin 0 e = none := fun _ _ => by
      simp only [valueWithin]
    refine ⟨⟨fun e e' _ => ?_, .inr ⟨nothing scope, nothing scope'⟩⟩, ?_⟩
    · rw [nothing, nothing]
      exact .none
    · intro name literal literal' searched searched' _ related
      simp only [searchWithin]
      exact ⟨.none, related⟩
  | succ steps ih =>
    obtain ⟨values, insides⟩ := ih
    have properties : PropertyValuesAkin k
        (fun literal name => (scope.searchWithin steps name literal []).1)
        (fun literal name => (scope'.searchWithin steps name literal []).1) :=
      fun literal literal' name corresponds =>
        (insides name literal literal' [] [] corresponds .nil).found
    refine ⟨⟨fun e e' exprs => ?_,
      .inl ⟨scope.readsStrings_valueWithin steps, scope'.readsStrings_valueWithin steps⟩⟩, ?_⟩
    · obtain ⟨same⟩ := exprs
      simp only [valueWithin]
      generalize e.unwrap = f, e'.unwrap = f' at same
      have itself := same
      cases same with
      | name text => exact akin.followName values properties text
      | member objects keys =>
        have followed := akin.followAccess values properties objects keys
        exact .some (rel_getD followed (.member objects keys))
      | _ => exact .some itself
    · intro name literal literal' searched searched' corresponds related
      simp only [searchWithin, Matching.contains_eq corresponds.matched related]
      split
      · exact ⟨.none, related⟩
      · exact values.searchProperties (insides name) name
          (List.forall₂_reverse_iff.mpr corresponds.properties.forall₂)
          (.cons corresponds.matched related)

theorem value? (akin : scope.Akin k scope') : ValuesAkin k scope.value? scope'.value? :=
  (akin.within (depthLimit + 1)).1

theorem object? (akin : scope.Akin k scope') {e e' : Expr} (exprs : e.Akin k e') :
    Option.Rel k.Corresponds (scope.object? e) (scope'.object? e') :=
  akin.value?.object? exprs

theorem property? (akin : scope.Akin k scope') :
    PropertyValuesAkin k scope.property? scope'.property? :=
  fun literal literal' name corresponds =>
    ((akin.within (depthLimit + 1)).2 name literal literal' [] [] corresponds .nil).found

theorem keyName? (akin : scope.Akin k scope') {key key' : Key}
    (keys : key.Akin k .property key') : scope.keyName? key = scope'.keyName? key' :=
  akin.value?.nameOfKey? (scope.readsStrings_valueWithin depthLimit)
    (scope'.readsStrings_valueWithin depthLimit) keys

/-- A call of `require` with nothing around it names the module that its first argument spells. -/
theorem required?_eq_ite (callee : Expr) (arguments : List Element) :
    required? callee arguments =
      if callee.isRequire then
        match arguments with
        | .item e :: _ => e.literalText?
        | _ => none
      else none := by
  -- The other forms of a call are left: another callee, or another first argument.
  unfold required?
  split
  · simp [Expr.isRequire]
  · rename_i other
    split
    · rename_i bare
      unfold Expr.isRequire at bare
      split at bare
      · rename_i span text
        obtain rfl : text = "require" := by simpa using bare
        split
        · rename_i e rest
          exact absurd rfl (other span e rest rfl)
        · rfl
      · cases bare
    · rfl

/-- Calls name the same module when wrappers stand around `require` in both or in none. -/
theorem required?_eq {callee callee' : Expr} {arguments arguments' : List Element}
    (same : callee.isRequire = callee'.isRequire) (akin : ElementsAkin k arguments arguments') :
    required? callee arguments = required? callee' arguments' := by
  -- The module is the text of the only argument.
  rw [required?_eq_ite, required?_eq_ite, same]
  cases akin with
  | nil => rfl
  | cons first _ =>
    cases first with
    | item akin => simp only [akin.literalText?]
    | _ => rfl

/-- Expressions that are akin come from the same module. -/
theorem origin? (akin : scope.Akin k scope') {e e' : Expr} (exprs : e.Akin k e') :
    scope.origin? e = scope'.origin? e' := by
  -- Each step goes on to what is akin, or ends in the same way.
  have within : ∀ steps e e', e.Akin k e' →
      scope.originWithin steps e = scope'.originWithin steps e' := by
    intro steps
    induction steps with
    | zero => exact fun _ _ _ => rfl
    | succ steps ih =>
      intro e e' exprs
      obtain ⟨same⟩ := exprs
      simp only [originWithin, originStep]
      generalize e.unwrap = f, e'.unwrap = f' at same
      cases same with
      | name text =>
        have bound := akin.get? text
        simp only
        generalize scope.get? text = binding, scope'.get? text = binding' at bound
        cases bound with
        | none => rfl
        | some bindings =>
          cases bindings with
          | ofValue akin => exact ih _ _ akin
          | property akin _ => exact ih _ _ akin
          | _ => rfl
      | member objects _ => exact ih _ _ objects
      | call requires callees arguments =>
        simp only [required?_eq requires arguments]
        cases required? _ _ with
        | some origin => rfl
        | none => exact ih _ _ callees
      | _ => rfl
  exact within depthLimit e e' exprs

end Akin

end Scope

end PropCatalog
