import Mathlib.Data.List.Forall2
import PropCatalog.Syntax.Literal
import PropCatalog.Syntax.Source

/-! What two source files that are written in different ways have in common: which of their object
literals correspond, and which of their statements assign. -/

namespace PropCatalog

open Syntax

/-- Which object literals of two source files correspond, each to one other at most. -/
structure Matching (file other : SourceFile) where
  literal : ObjectLiteral → ObjectLiteral → Prop
  /-- Equal literals stand at the same place, and so do those that they correspond to. -/
  apart : ∀ {first second first' second' : ObjectLiteral}, literal first first' →
    literal second second' → (first = second ↔ first' = second')

variable {file other : SourceFile}

/-- Two positions have the same description in front of them. -/
def Matching.Described (_ : Matching file other) (start start' : Nat) : Prop :=
  file.descriptionAt? start = other.descriptionAt? start'

/-- How two source files may differ: which object literals correspond, and whether names may be
spelled in other ways. -/
structure Kinship (file other : SourceFile) extends Matching file other where
  respells : Prop

/-- Names are spelled the same in both files. -/
def Matching.wrapping (m : Matching file other) : Kinship file other :=
  ⟨m, False⟩

/-- Names may be spelled in other ways. -/
def Matching.spelling (m : Matching file other) : Kinship file other :=
  ⟨m, True⟩

variable {m : Matching file other}

/-- Literals are equal when their matches are. -/
theorem Matching.beq_eq {literal literal' : ObjectLiteral} (matched : m.literal literal literal')
    (known known' : ObjectLiteral) (also : m.literal known known') :
    (literal == known) = (literal' == known') := by
  -- A match makes no two literals one.
  rw [Bool.eq_iff_iff, beq_iff_eq, beq_iff_eq]
  exact m.apart matched also

/-- A literal is among some others exactly when its match is among theirs. -/
theorem Matching.contains_eq {literal literal' : ObjectLiteral}
    (matched : m.literal literal literal') {searched searched' : List ObjectLiteral}
    (related : List.Forall₂ m.literal searched searched') :
    searched.contains literal = searched'.contains literal' := by
  -- The lists are searched in step.
  induction related with
  | nil => rfl
  | @cons known known' _ _ here _ ih =>
    rw [List.contains_cons, List.contains_cons, ih, beq_eq matched known known' here]

namespace Syntax

/-- Whether an expression is the name `require` without anything around it. -/
def Expr.isRequire : Expr → Bool
  | .name _ text => text == "require"
  | _ => false

/-- Whether an expression is an assignment to a member, with nothing around it or around what is
assigned to. -/
def Expr.assignsMember : Expr → Bool
  | .assign _ true (.expr (.member _ _ _)) _ => true
  | _ => false

/-- Whether an expression is an assignment to a member of a name, with nothing around it, around
what is assigned to or around the name. -/
def Expr.assignsNamed : Expr → Bool
  | .assign _ true (.expr (.member _ (.name _ _) _)) _ => true
  | _ => false

/-- An assignment to a member of a name is one to a member. -/
theorem Expr.assignsMember_of_assignsNamed {e : Expr} (named : e.assignsNamed = true) :
    e.assignsMember = true := by
  -- A member of a name is a member.
  unfold Expr.assignsNamed at named
  split at named
  · rfl
  · cases named

/-- Two statements assign alike when both of them are assignments to members, or of names, without
wrappers that hide it, or none of them is. -/
def Stmt.AssignsAlike : Stmt → Stmt → Prop
  | .expr _ e, .expr _ e' =>
    e.assignsMember = e'.assignsMember ∧ e.assignsNamed = e'.assignsNamed
  | _, _ => True

end Syntax

end PropCatalog
