import PropCatalog.Proofs.Occurrence
import PropCatalog.Proofs.Scope.Following
import PropCatalog.Scope.Parts

/-! Values are parts of the expression that they are values of, or of what the names of the scope
stand for. -/

namespace PropCatalog

open Syntax

namespace Syntax

/-- Wrappers have no part in the parts of an expression. -/
theorem Expr.parts_unwrap (e : Expr) : e.unwrap.parts = e.parts := by
  -- A wrapper has the parts of what is inside it.
  fun_induction Expr.unwrap e with
  | case1 _ _ _ ih => rw [ih, Expr.parts]
  | case2 e _ => rfl

/-- What is inside the wrappers of an expression is a part of it. -/
theorem Expr.unwrap_mem_parts (e : Expr) : e.unwrap ∈ e.parts := by
  -- Every form but that of a wrapper comes first among its own parts.
  fun_induction Expr.unwrap e with
  | case1 _ _ _ ih =>
    rw [Expr.parts]
    exact ih
  | case2 e plain =>
    cases e with
    | wrapped span wrapper inner => exact absurd rfl (plain span wrapper inner)
    | _ => simp [Expr.parts]

/-- The parts of a list of properties are those of its members. -/
theorem mem_partsOfProperties_iff {x : Expr} {properties : List Property} :
    x ∈ partsOfProperties properties ↔
      ∃ property ∈ properties, x ∈ partsOfProperties [property] := by
  -- The parts of the properties follow one another.
  induction properties with
  | nil => simp [partsOfProperties]
  | cons property rest ih =>
    have parts : partsOfProperties (property :: rest) =
        partsOfProperties [property] ++ partsOfProperties rest := by
      cases property <;> simp [partsOfProperties]
    rw [parts, List.mem_append, ih]
    simp

mutual

/-- The parts of a part of an expression are parts of the expression. -/
theorem Expr.parts_subset (x e : Expr) (member : x ∈ e.parts) : x.parts ⊆ e.parts := by
  -- An expression is one of its parts itself, and otherwise the part lies further inside.
  cases e with
  | wrapped span wrapper inner =>
    rw [Expr.parts] at member ⊢
    exact Expr.parts_subset x inner member
  | array span elements =>
    rcases List.mem_cons.mp member with rfl | member
    · exact List.Subset.refl _
    · exact List.subset_cons_of_subset _ (partsOfElements_subset x elements member)
  | object span properties =>
    rcases List.mem_cons.mp member with rfl | member
    · exact List.Subset.refl _
    · exact List.subset_cons_of_subset _ (partsOfProperties_subset x properties member)
  | member span object key =>
    rcases List.mem_cons.mp member with rfl | member
    · exact List.Subset.refl _
    · exact List.subset_cons_of_subset _ (Expr.parts_subset x object member)
  | call span callee arguments =>
    rcases List.mem_cons.mp member with rfl | member
    · exact List.Subset.refl _
    · refine List.subset_cons_of_subset _ ?_
      rcases List.mem_append.mp member with member | member
      · exact List.subset_append_of_subset_left _ (Expr.parts_subset x callee member)
      · exact List.subset_append_of_subset_right _ (partsOfElements_subset x arguments member)
  | _ =>
    rw [List.mem_singleton.mp member]
    exact List.Subset.refl _

theorem partsOfElements_subset (x : Expr) (elements : List Element)
    (member : x ∈ partsOfElements elements) : x.parts ⊆ partsOfElements elements := by
  -- The part is in the first element or in the rest.
  cases elements with
  | nil => simp [partsOfElements] at member
  | cons element rest =>
    cases element with
    | hole => exact partsOfElements_subset x rest member
    | item value | spread value =>
      rcases List.mem_append.mp member with member | member
      · exact List.subset_append_of_subset_left _ (Expr.parts_subset x value member)
      · exact List.subset_append_of_subset_right _ (partsOfElements_subset x rest member)

theorem partsOfProperties_subset (x : Expr) (properties : List Property)
    (member : x ∈ partsOfProperties properties) : x.parts ⊆ partsOfProperties properties := by
  -- The part is in the first property or in the rest.
  cases properties with
  | nil => simp [partsOfProperties] at member
  | cons property rest =>
    cases property with
    | pair start key value =>
      rcases List.mem_append.mp member with member | member
      · exact List.subset_append_of_subset_left _ (Expr.parts_subset x value member)
      · exact List.subset_append_of_subset_right _ (partsOfProperties_subset x rest member)
    | spread value =>
      rcases List.mem_append.mp member with member | member
      · exact List.subset_append_of_subset_left _ (Expr.parts_subset x value member)
      · exact List.subset_append_of_subset_right _ (partsOfProperties_subset x rest member)
    | shorthand span text =>
      rcases List.mem_cons.mp member with rfl | member
      · simp [Expr.parts, partsOfProperties]
      · exact List.subset_cons_of_subset _ (partsOfProperties_subset x rest member)
    | _ => exact partsOfProperties_subset x rest member

end

/-- A list of expressions that has the parts of its members, too. -/
def PartsClosed (known : List Expr) : Prop :=
  ∀ x ∈ known, x.parts ⊆ known

namespace PartsClosed

/-- The parts of an expression have the parts of each of them. -/
theorem parts (e : Expr) : PartsClosed e.parts :=
  fun x => Expr.parts_subset x e

theorem append {known others : List Expr} (closed : PartsClosed known)
    (closed' : PartsClosed others) : PartsClosed (known ++ others) := by
  -- A member brings its parts along on its own side.
  intro x member
  rcases List.mem_append.mp member with member | member
  · exact List.subset_append_of_subset_left _ (closed x member)
  · exact List.subset_append_of_subset_right _ (closed' x member)

theorem flatMap {α : Type} {f : α → List Expr} (closed : ∀ a, PartsClosed (f a)) (xs : List α) :
    PartsClosed (xs.flatMap f) := by
  -- The parts of a member come from the same place.
  intro x member y inside
  obtain ⟨a, here, member⟩ := List.mem_flatMap.mp member
  exact List.mem_flatMap.mpr ⟨a, here, closed a x member inside⟩

/-- The parts of the static members of a class have the parts of each of them. -/
theorem ofClass (definition : Class) : PartsClosed definition.parts := by
  -- A member is an expression or none.
  refine flatMap (fun member => ?_) _
  unfold ClassMember.parts
  split
  · exact parts _
  · cases returned? _ with
    | none => simp [PartsClosed]
    | some e => exact parts e
  · simp [PartsClosed]

end PartsClosed

/-- The value of a static member of a class is among its parts. -/
theorem Class.parts_subset_of_static? {definition : Class} {name : String} {e : Expr}
    (given : definition.static? name = some e) : e.parts ⊆ definition.parts := by
  -- A field or getter that gives the value is one of the members.
  obtain ⟨member, here, gives⟩ := List.exists_of_findSome?_eq_some given
  have inside : e.parts ⊆ member.parts := by
    split at gives
    · split at gives
      · subst gives
        exact List.Subset.refl _
      · cases gives
    · split at gives
      · simp [ClassMember.parts, gives]
      · cases gives
    · cases gives
  intro x part
  exact List.mem_flatMap.mpr ⟨member, List.mem_reverse.mp here, inside part⟩

end Syntax

namespace Binding

/-- The parts of what a name stands for have the parts of each of them. -/
theorem partsClosed (binding : Binding) : PartsClosed binding.parts := by
  -- It is an expression or a class, or there are none.
  unfold Binding.parts
  split
  · exact .parts _
  · exact .parts _
  · exact .ofClass _
  · simp [PartsClosed]

end Binding

namespace Scope

variable {scope : Scope}

/-- The parts of a scope have the parts of each of them. -/
theorem partsClosed (scope : Scope) : PartsClosed scope.parts :=
  .append (.flatMap (fun bound => bound.2.partsClosed) _)
    (.flatMap (fun assigned : (String × String) × Expr => .parts assigned.2) _)

/-- What a name stands for is among the parts of the scope. -/
theorem parts_subset_of_get? {name : String} {binding : Binding}
    (bound : scope.get? name = some binding) : binding.parts ⊆ scope.parts := by
  -- A lookup finds one of the entries.
  intro x part
  have here : (name, binding) ∈ scope.bindings := mem_of_lookup bound
  exact List.mem_append_left _ (List.mem_flatMap.mpr ⟨_, here, part⟩)

/-- What is assigned to a member is among the parts of the scope. -/
theorem parts_subset_of_assigned? {object member : String} {e : Expr}
    (given : scope.assigned? object member = some e) : e.parts ⊆ scope.parts := by
  -- A lookup finds one of the entries.
  intro x part
  have here : ((object, member), e) ∈ scope.assignments := mem_of_lookup given
  exact List.mem_append_right _ (List.mem_flatMap.mpr ⟨_, here, part⟩)

/-- A list that has the parts of its members and those of a scope. -/
structure Holds (scope : Scope) (known : List Expr) : Prop where
  closed : PartsClosed known
  parts : scope.parts ⊆ known

/-- The parts of an expression and those of a scope make such a list. -/
theorem holds_parts (scope : Scope) (e : Expr) : scope.Holds (e.parts ++ scope.parts) :=
  ⟨.append (.parts e) scope.partsClosed, List.subset_append_right _ _⟩

/-- The values of parts are parts. -/
def Inside (known : List Expr) (value? : Expr → Option Expr) : Prop :=
  ∀ e v, e.parts ⊆ known → value? e = some v → v ∈ known

variable {known : List Expr}

/-- The properties of an object literal among the parts are parts. -/
theorem Holds.properties (holds : scope.Holds known) {e : Expr} {literal : ObjectLiteral}
    (member : e ∈ known) (object : e.object? = some literal) :
    partsOfProperties literal.properties ⊆ known := by
  -- The literal comes before its properties.
  cases e with
  | object span properties =>
    cases object
    exact fun x part => holds.closed _ member (List.mem_cons_of_mem _ part)
  | _ => cases object

/-- What can be followed at a property of a literal is among the parts of the properties. -/
theorem parts_subset_of_followed {property : Property} {properties : List Property}
    (member : property ∈ properties) {e : Expr} (followed : e ∈ property.followed) :
    e.parts ⊆ partsOfProperties properties := by
  -- The property has its expressions among its own parts.
  intro x part
  refine mem_partsOfProperties_iff.mpr ⟨property, member, ?_⟩
  cases property <;> simp_all [Property.followed, partsOfProperties, Expr.parts]

/-- What has its parts in such a list leads to members of the list. -/
theorem Holds.keeps (holds : scope.Holds known) :
    scope.Keeps (fun e => e.parts ⊆ known) (· ∈ known) where
  value name e bound := List.Subset.trans (parts_subset_of_get? bound) holds.parts
  property name e key bound := List.Subset.trans (parts_subset_of_get? bound) holds.parts
  static name definition member e bound given :=
    List.Subset.trans (Class.parts_subset_of_static? given)
      (List.Subset.trans (parts_subset_of_get? bound) holds.parts)
  assigned object member e given :=
    List.Subset.trans (parts_subset_of_assigned? given) holds.parts
  target e span object key parts same := by
    -- Bound, static and assigned expressions have their parts in the list.
    rw [← e.parts_unwrap, same] at parts
    exact fun x part => parts (List.mem_cons_of_mem _ part)
  literal e literal member object property given e' followed :=
    List.Subset.trans (parts_subset_of_followed given followed) (holds.properties member object)
  stops e parts _ := parts e.unwrap_mem_parts

/-- In any number of steps, the values of parts and what is found in literals among them are parts.
-/
theorem Holds.within (holds : scope.Holds known) (steps : Nat) :
    Inside known (scope.valueWithin steps) ∧
      ∀ name literal searched v, partsOfProperties literal.properties ⊆ known →
        (scope.searchWithin steps name literal searched).1 = some v → v ∈ known := by
  -- What the parts keep, each number of steps keeps.
  obtain ⟨values, literals⟩ := holds.keeps.within steps
  refine ⟨values, fun name literal searched v parts found => ?_⟩
  refine literals name literal searched v (fun property member e followed => ?_) found
  exact List.Subset.trans (parts_subset_of_followed member followed) parts

/-- The value of an expression is among the parts that the expression is made of and those of the
scope. -/
theorem Holds.value? (holds : scope.Holds known) : Inside known scope.value? :=
  (holds.within (depthLimit + 1)).1

end Scope

end PropCatalog
