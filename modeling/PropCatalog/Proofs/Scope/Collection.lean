import Mathlib.Data.List.Perm.Basic
import PropCatalog.Proofs.Occurrence
import PropCatalog.Proofs.Scope.Agreement
import PropCatalog.Scope.Parts

/-! How the items of a module make its scope: each adds bindings and assignments of its own, which
hang on nothing that stands before it. -/

namespace PropCatalog.Scope

open Syntax

/-- The bindings and assignments of one scope in front of those of another. -/
def above (scope below : Scope) : Scope where
  bindings := scope.bindings ++ below.bindings
  assignments := scope.assignments ++ below.assignments

variable (scope below : Scope)

/-- Steps that leave alone what lies below do so one after the other. -/
theorem foldl_above {α : Type} {step : Scope → α → Scope}
    (keeps : ∀ scope below x, step (above scope below) x = above (step scope x) below)
    (xs : List α) (scope below : Scope) :
    xs.foldl step (scope.above below) = (xs.foldl step scope).above below := by
  -- Each step keeps what lies below.
  induction xs generalizing scope with
  | nil => rfl
  | cons x rest ih => rw [List.foldl_cons, List.foldl_cons, keeps, ih]

theorem bindField_above (value : Expr) (field : Field) :
    bindField value (scope.above below) field = (bindField value scope field).above below := by
  -- Only keys that spell a name make a binding.
  unfold bindField
  split
  · rfl
  · split <;> rfl
  · rfl

theorem bindDeclarator_above (declarator : Declarator) :
    (scope.above below).bindDeclarator declarator =
      (scope.bindDeclarator declarator).above below := by
  -- A declarator binds a name or the fields of a pattern.
  unfold bindDeclarator
  split
  · rfl
  · exact foldl_above (fun scope below => bindField_above scope below _) _ scope below
  · rfl

theorem bindDecl_above (declaration : Decl) :
    (scope.above below).bindDecl declaration = (scope.bindDecl declaration).above below := by
  -- Only declarators bind more than one name.
  unfold bindDecl
  split
  · rfl
  · rfl
  · exact foldl_above bindDeclarator_above _ scope below
  · rfl

theorem assignExpr_above (e : Expr) :
    (scope.above below).assignExpr e = (scope.assignExpr e).above below := by
  -- An assignment adds one entry in front.
  unfold assignExpr
  split
  · split <;> rfl
  · rfl

/-- An item adds the same whatever there is before it. -/
theorem bindItem_above (item : Item) :
    (scope.above below).bindItem item = (scope.bindItem item).above below := by
  -- The kinds of items bind one after the other, none of them looks at the scope.
  unfold bindItem
  split
  · exact foldl_above (fun _ _ _ => rfl) _ scope below
  · exact bindDecl_above scope below _
  · rfl
  · rfl
  · exact bindDecl_above scope below _
  · exact assignExpr_above scope below _
  · rfl

/-- The scope of a module holds what each of its items makes on its own, the last one first. -/
theorem ofModule_eq (source : Module) :
    ofModule source =
      { bindings := source.items.reverse.flatMap fun item => (empty.bindItem item).bindings
        assignments := source.items.reverse.flatMap fun item =>
          (empty.bindItem item).assignments } := by
  -- A further item puts its own bindings over those of the items before it.
  rcases source with ⟨items⟩
  induction items using List.reverseRecOn with
  | nil => rfl
  | append_singleton items item ih =>
    have added : ofModule ⟨items ++ [item]⟩ = (empty.bindItem item).above (ofModule ⟨items⟩) := by
      rw [← bindItem_above]
      simp [ofModule, above, empty]
    rw [added, ih]
    simp [above]

/-- Every name is bound once at most, and every member is assigned once at most. -/
structure Once (scope : Scope) : Prop where
  bindings : (scope.bindings.map Prod.fst).Nodup
  assignments : (scope.assignments.map Prod.fst).Nodup

variable {items : List Item} {source : Module}

/-- Items in another order bind and assign the same, in another order. -/
theorem ofModule_perm (perm : items.Perm source.items) :
    (ofModule ⟨items⟩).bindings.Perm (ofModule source).bindings ∧
      (ofModule ⟨items⟩).assignments.Perm (ofModule source).assignments := by
  -- Each item brings its own bindings and assignments along.
  have reversed : items.reverse.Perm source.items.reverse :=
    (List.reverse_perm items).trans (perm.trans (List.reverse_perm source.items).symm)
  rw [ofModule_eq, ofModule_eq]
  exact ⟨reversed.flatMap_right _, reversed.flatMap_right _⟩

/-- Where nothing is bound or assigned twice, the order of items does not matter. -/
theorem Once.agree (once : (ofModule source).Once) (perm : items.Perm source.items) :
    (ofModule ⟨items⟩).Agree (ofModule source) := by
  -- A name is looked up in two orders of the same bindings, and it is in them once.
  obtain ⟨bindings, assignments⟩ := ofModule_perm perm
  constructor
  · funext name
    exact (lookup_perm bindings.symm once.bindings name).symm
  · funext object member
    exact (lookup_perm assignments.symm once.assignments (object, member)).symm

/-- The number of parts of a scope does not hang on the order of items. -/
theorem length_parts_ofModule (perm : items.Perm source.items) :
    (ofModule ⟨items⟩).parts.length = (ofModule source).parts.length := by
  -- The same bindings and assignments have their parts in another order.
  obtain ⟨bindings, assignments⟩ := ofModule_perm perm
  exact ((bindings.flatMap_right _).append (assignments.flatMap_right _)).length_eq

end PropCatalog.Scope
