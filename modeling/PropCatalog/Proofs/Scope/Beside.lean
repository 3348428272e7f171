import PropCatalog.Proofs.Scope.Agreement
import PropCatalog.Proofs.Scope.Mention
import PropCatalog.Proofs.Scope.Parts

/-! Scopes that differ in members assigned to some names only: what does not mention these names has
the same value in both. -/

namespace PropCatalog

open Syntax

/-- None of some names is mentioned in what a name stands for. -/
def Binding.Avoids (names : List String) (binding : Binding) : Prop :=
  ∀ x ∈ binding.parts, Unmentioned names x.mentions

namespace Scope

variable {names : List String}

/-- None of some names is mentioned in what the names of a scope and their members stand for. -/
def Avoids (names : List String) (scope : Scope) : Prop :=
  ∀ x ∈ scope.parts, Unmentioned names x.mentions

namespace Avoids

variable {scope : Scope}

/-- An expression among the parts does not mention the names. -/
theorem expr (avoids : scope.Avoids names) {e : Expr} (parts : e.parts ⊆ scope.parts) :
    Unmentioned names e.mentions :=
  e.unmentioned_unwrap.mp (avoids e.unwrap (parts e.unwrap_mem_parts))

/-- What is found in any number of steps does not mention the names either. -/
theorem valueWithin (avoids : scope.Avoids names) {e v : Expr}
    (free : Unmentioned names e.mentions) {steps : Nat}
    (found : scope.valueWithin steps e = some v) : Unmentioned names v.mentions := by
  -- It is one of the parts of the expression or of the scope.
  have inside := ((scope.holds_parts e).within steps).1 e v (List.subset_append_left _ _) found
  rcases List.mem_append.mp inside with part | part
  · exact e.unmentioned_parts free v part
  · exact avoids v part

/-- An object literal that is found does not mention the names either. -/
theorem object? (avoids : scope.Avoids names) {e : Expr} (free : Unmentioned names e.mentions)
    {literal : ObjectLiteral} (leads : scope.object? e = some literal) :
    Unmentioned names (propertiesMention · literal.properties) := by
  -- The literal is the value of the expression.
  obtain ⟨v, found, object⟩ := Option.bind_eq_some_iff.mp leads
  exact unmentioned_object? (avoids.valueWithin free found) object

end Avoids

/-- Two scopes differ at most in the members that are assigned to some names. -/
structure Beside (names : List String) (scope other : Scope) : Prop where
  bindings : scope.bindings = other.bindings
  assigned? : ∀ object ∉ names, ∀ member,
    scope.assigned? object member = other.assigned? object member

theorem Beside.get? {scope other : Scope} (beside : scope.Beside names other) :
    scope.get? = other.get? := by
  -- The bindings are the same.
  funext name
  rw [Scope.get?, Scope.get?, beside.bindings]

section Values

variable {scope other : Scope} {value? value?' : Expr → Option Expr}
  {property? property?' : ObjectLiteral → String → Option Expr}
  {inside inside' : ObjectLiteral → List ObjectLiteral → Search}

/-- Two ways to find values find the same of what does not mention some names, and what they find
does not mention them either. -/
structure SameValues (names : List String) (value? value?' : Expr → Option Expr) : Prop where
  eq : ∀ e, Unmentioned names e.mentions → value? e = value?' e
  unmentioned : ∀ e v, Unmentioned names e.mentions → value? e = some v →
    Unmentioned names v.mentions

/-- An object literal that is found does not mention the names. -/
theorem SameValues.literal (same : SameValues names value? value?') {e : Expr}
    (free : Unmentioned names e.mentions) {literal : ObjectLiteral}
    (leads : (value? e).bind Expr.object? = some literal) :
    Unmentioned names (propertiesMention · literal.properties) := by
  -- The literal is the value of the expression.
  obtain ⟨v, found, object⟩ := Option.bind_eq_some_iff.mp leads
  exact unmentioned_object? (same.unmentioned e v free found) object

/-- Keys that do not mention the names are names of the same properties. -/
theorem SameValues.nameOfKey? (same : SameValues names value? value?') {key : Key}
    (free : Unmentioned names key.mentions) :
    Scope.nameOfKey? value? key = Scope.nameOfKey? value?' key := by
  -- Only a computed key has a value.
  cases key with
  | computed e => simp only [Scope.nameOfKey?, same.eq e free]
  | _ => rfl

/-- Accesses that do not mention the names are of the same members. -/
theorem SameValues.nameOfAccess? (same : SameValues names value? value?') {key : Key}
    (free : Unmentioned names key.mentions) :
    Scope.nameOfAccess? value? key = Scope.nameOfAccess? value?' key := by
  -- Only a computed key has a value.
  cases key with
  | computed e => simp only [Scope.nameOfAccess?, same.eq e free]
  | _ => rfl

/-- Properties that do not mention the names are searched with the same result. -/
theorem SameValues.searchProperties (same : SameValues names value? value?')
    (literals : ∀ literal searched, Unmentioned names (propertiesMention · literal.properties) →
      inside literal searched = inside' literal searched)
    (name : String) {properties : List Property}
    (free : Unmentioned names (propertiesMention · properties))
    (searched : List ObjectLiteral) :
    Scope.searchProperties value? inside name properties searched =
      Scope.searchProperties value?' inside' name properties searched := by
  -- A property ends the search with the same value, or both searches go on.
  induction properties generalizing searched with
  | nil => rfl
  | cons property rest ih =>
    have parts := unmentioned_or.mp free
    have others := ih parts.2
    cases property with
    | pair start key value =>
      have inside := unmentioned_or.mp parts.1
      simp only [Scope.searchProperties, same.nameOfKey? inside.1, same.eq value inside.2, others]
    | shorthand span text =>
      simp only [Scope.searchProperties, same.eq (.name span text) parts.1, others]
    | spread value =>
      simp only [Scope.searchProperties, ← same.eq value parts.1, others]
      cases leads : (value? value).bind Expr.object? with
      | none => rfl
      | some literal => simp only [literals literal searched (same.literal parts.1 leads)]
    | _ => exact others searched

/-- An object literal that is found has the same properties. -/
theorem SameValues.through (same : SameValues names value? value?')
    (properties : ∀ literal name, Unmentioned names (propertiesMention · literal.properties) →
      property? literal name = property?' literal name)
    {e : Expr} (free : Unmentioned names e.mentions) (name : String) :
    ((value? e).bind Expr.object?).bind (fun literal => property? literal name) =
      ((value?' e).bind Expr.object?).bind (fun literal => property?' literal name) := by
  -- Both look into the same literal, if there is one.
  rw [← same.eq e free]
  cases leads : (value? e).bind Expr.object? with
  | none => rfl
  | some literal => exact properties literal name (same.literal free leads)

/-- Names are followed to the same values. -/
theorem Beside.followName (beside : scope.Beside names other) (avoids : scope.Avoids names)
    (same : SameValues names value? value?')
    (properties : ∀ literal name, Unmentioned names (propertiesMention · literal.properties) →
      property? literal name = property?' literal name) (name : String) :
    scope.followName value? property? name = other.followName value?' property?' name := by
  -- A name is bound to the same, and what it is bound to does not mention the names.
  simp only [Scope.followName, ← beside.get?]
  cases bound : scope.get? name with
  | none => rfl
  | some binding =>
    have parts := parts_subset_of_get? bound
    cases binding with
    | value e => exact same.eq e (avoids.expr parts)
    | property e key => exact same.through properties (avoids.expr parts) key
    | _ => rfl

/-- Accesses to what does not mention the names are followed to the same values. -/
theorem Beside.followAccess (beside : scope.Beside names other) (avoids : scope.Avoids names)
    (same : SameValues names value? value?')
    (properties : ∀ literal name, Unmentioned names (propertiesMention · literal.properties) →
      property? literal name = property?' literal name)
    {object : Expr} {key : Key} (objects : Unmentioned names object.mentions)
    (keys : Unmentioned names key.mentions) :
    scope.followAccess value? property? object key =
      other.followAccess value?' property?' object key := by
  -- Both scopes are asked for the same member.
  simp only [Scope.followAccess, ← same.nameOfAccess? keys]
  cases Scope.nameOfAccess? value? key with
  | none => rfl
  | some name =>
    have through := same.through properties objects name
    simp only [Option.bind_some]
    -- Only a name has assigned members, and it is none of those that are left out.
    split
    · rename_i span text named
      rw [← beside.assigned? text (notMem_of_unwrap objects named), ← beside.get?]
      cases given : scope.assigned? text name with
      | some value => exact same.eq value (avoids.expr (parts_subset_of_assigned? given))
      | none =>
        cases bound : scope.get? text with
        | none => exact through
        | some binding =>
          cases binding with
          | «class» definition =>
            cases static : definition.static? name with
            | none => simp only [static, Option.bind_none]
            | some value =>
              have parts := List.Subset.trans (Class.parts_subset_of_static? static)
                (parts_subset_of_get? bound)
              simp only [static, Option.bind_some]
              exact same.eq value (avoids.expr parts)
          | _ => exact through
    · exact through

end Values

variable {scope other : Scope}

/-- In any number of steps, what does not mention the names has the same value, and properties of
literals that do not mention them are found alike. -/
theorem Beside.within (beside : scope.Beside names other) (avoids : scope.Avoids names)
    (steps : Nat) :
    SameValues names (scope.valueWithin steps) (other.valueWithin steps) ∧
      ∀ name literal searched, Unmentioned names (propertiesMention · literal.properties) →
        scope.searchWithin steps name literal searched =
          other.searchWithin steps name literal searched := by
  -- Each step looks into the scope once and goes on with fewer steps.
  have closed : ∀ steps e v, Unmentioned names e.mentions →
      scope.valueWithin steps e = some v → Unmentioned names v.mentions :=
    fun steps e v free => avoids.valueWithin free
  induction steps with
  | zero =>
    refine ⟨⟨fun e _ => ?_, closed 0⟩, fun name literal searched _ => ?_⟩
    · simp only [valueWithin]
    · simp only [searchWithin]
  | succ steps ih =>
    obtain ⟨same, literals⟩ := ih
    have properties : ∀ literal name,
        Unmentioned names (propertiesMention · literal.properties) →
        (scope.searchWithin steps name literal []).1 =
          (other.searchWithin steps name literal []).1 :=
      fun literal name free => by rw [literals name literal [] free]
    refine ⟨⟨fun e free => ?_, closed (steps + 1)⟩, fun name literal searched free => ?_⟩
    · have free := e.unmentioned_unwrap.mpr free
      simp only [valueWithin]
      generalize e.unwrap = e at free
      cases e with
      | name span text => exact beside.followName avoids same properties text
      | member span object key =>
        have inside := unmentioned_or.mp free
        have access := beside.followAccess avoids same properties inside.1 inside.2
        simp only [access]
      | _ => rfl
    · simp only [searchWithin]
      split
      · rfl
      · refine same.searchProperties (literals name) name ?_ _
        simpa only [unmentioned_properties, List.mem_reverse] using free

/-- What does not mention the names has the same value. -/
theorem Beside.value? (beside : scope.Beside names other) (avoids : scope.Avoids names) :
    SameValues names scope.value? other.value? :=
  (beside.within avoids (depthLimit + 1)).1

/-- What does not mention the names is the same object literal. -/
theorem Beside.object? (beside : scope.Beside names other) (avoids : scope.Avoids names) {e : Expr}
    (free : Unmentioned names e.mentions) : scope.object? e = other.object? e := by
  rw [Scope.object?, Scope.object?, (beside.value? avoids).eq e free]

/-- A literal that does not mention the names has the same properties. -/
theorem Beside.property? (beside : scope.Beside names other) (avoids : scope.Avoids names)
    {literal : ObjectLiteral} (free : Unmentioned names (propertiesMention · literal.properties))
    (name : String) : scope.property? literal name = other.property? literal name := by
  -- The search of a literal is the same at the limit.
  rw [Scope.property?, Scope.property?,
    (beside.within avoids (depthLimit + 1)).2 name literal [] free]

/-- What names stand for decides where an expression comes from. -/
theorem Beside.origin? (beside : scope.Beside names other) : scope.origin? = other.origin? :=
  origin?_congr beside.get?

namespace Avoids

theorem bind (avoids : scope.Avoids names) {binding : Binding} (free : binding.Avoids names)
    (name : String) : (scope.bind name binding).Avoids names := by
  -- A part belongs to the new binding or has been there.
  intro x part
  rcases List.mem_append.mp part with part | part
  · rcases List.mem_append.mp part with part | part
    · exact free x part
    · exact avoids x (List.mem_append_left _ part)
  · exact avoids x (List.mem_append_right _ part)

theorem assign (avoids : scope.Avoids names) {value : Expr}
    (free : Unmentioned names value.mentions) (object member : String) :
    (scope.assign object member value).Avoids names := by
  -- A part belongs to the new value or has been there.
  intro x part
  rcases List.mem_append.mp part with part | part
  · exact avoids x (List.mem_append_left _ part)
  · rcases List.mem_append.mp part with part | part
    · exact value.unmentioned_parts free x part
    · exact avoids x (List.mem_append_right _ part)

theorem bindField (avoids : scope.Avoids names) {value : Expr}
    (free : Unmentioned names value.mentions) (field : Field) :
    (Scope.bindField value scope field).Avoids names := by
  -- Whatever a field takes is a property of the value.
  have taken : ∀ key, (Binding.property value key).Avoids names :=
    fun _ => value.unmentioned_parts free
  unfold Scope.bindField
  split
  · exact avoids.bind (taken _) _
  · split
    · exact avoids.bind (taken _) _
    · exact avoids
  · exact avoids

theorem bindDeclarator (avoids : scope.Avoids names) {declarator : Declarator}
    (free : Unmentioned names declarator.mentions) :
    (scope.bindDeclarator declarator).Avoids names := by
  -- Names are bound to the value, or fields are to parts of it.
  unfold Scope.bindDeclarator
  split
  · refine avoids.bind ?_ _
    exact Expr.unmentioned_parts _ (unmentioned_or.mp free).2
  · rename_i fields value
    have free : Unmentioned names value.mentions := (unmentioned_or.mp free).2
    exact List.foldlRecOn fields _ avoids fun _ avoids field _ => avoids.bindField free field
  · exact avoids

theorem bindDecl (avoids : scope.Avoids names) {declaration : Decl}
    (free : Unmentioned names declaration.mentions) :
    (scope.bindDecl declaration).Avoids names := by
  -- A declaration binds a class, a function or its declarators.
  unfold Scope.bindDecl
  split
  · refine avoids.bind ?_ _
    exact Class.unmentioned_parts (unmentioned_or.mp free).2
  · refine avoids.bind ?_ _
    exact List.forall_mem_nil _
  · refine List.foldlRecOn _ _ avoids fun _ avoids declarator here => ?_
    exact avoids.bindDeclarator (unmentioned_declarators.mp free declarator here)
  · exact avoids

theorem assignExpr (avoids : scope.Avoids names) {e : Expr}
    (free : Unmentioned names e.mentions) : (scope.assignExpr e).Avoids names := by
  -- Only an assignment to a member is collected.
  unfold Scope.assignExpr
  split
  · split
    · exact avoids.assign (unmentioned_or.mp free).2 _ _
    · exact avoids
  · exact avoids

/-- What an item binds and assigns does not mention what the item does not mention. -/
theorem bindItem (avoids : scope.Avoids names) {item : Item}
    (free : Unmentioned names item.mentions) : (scope.bindItem item).Avoids names := by
  -- Imports and functions bring no expressions with them; the rest is among those of the item.
  unfold Scope.bindItem
  split
  · refine List.foldlRecOn _ _ avoids fun _ avoids name _ => avoids.bind ?_ name
    exact List.forall_mem_nil _
  · exact avoids.bindDecl free
  · refine avoids.bind ?_ _
    exact Class.unmentioned_parts (unmentioned_or.mp free).2
  · refine avoids.bind ?_ _
    exact List.forall_mem_nil _
  · exact avoids.bindDecl free
  · exact avoids.assignExpr free
  · exact avoids

/-- What the names of a module and their members stand for does not mention what the module does not
mention. -/
theorem ofModule {source : Module} (free : Unmentioned names source.mentions) :
    (Scope.ofModule source).Avoids names := by
  -- Item by item, nothing with such a name in it gets into the scope.
  refine List.foldlRecOn source.items _ (List.forall_mem_nil _) fun _ avoids item here => ?_
  exact avoids.bindItem (unmentioned_items.mp free item here)

end Avoids

end Scope

end PropCatalog
