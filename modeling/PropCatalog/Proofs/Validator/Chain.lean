import Mathlib.Data.List.ModifyLast
import PropCatalog.Validator.Chain

/-! Chains of accesses and calls. The accesses of an expression, which are collected on the way from
its tip to its root, are those that a recursion over the expression gives, and each has the
arguments of the call that is made directly on it. -/

namespace PropCatalog

open Syntax

/-- What is made on an expression: an access or a call. -/
inductive Link where
  | access (key : Key)
  | call (arguments : List Element)

/-- The arguments of a call. -/
def Link.arguments? : Link → Option (List Element)
  | .access _ => none
  | .call arguments => some arguments

/-- What stands before some links is called with the arguments of the first one, if that is a call.
Where there are no links, it is called from around. -/
def calledWith (around : Option (List Element)) (links : List Link) : Option (List Element) :=
  (links.head?.map Link.arguments?).getD around

/-- The accesses among some links, each with the arguments of a call that is the next link. -/
def accessesAlong (around : Option (List Element)) : List Link → List Access
  | [] => []
  | .access key :: rest => ⟨key, calledWith around rest⟩ :: accessesAlong around rest
  | .call _ :: rest => accessesAlong around rest

/-- A further link stands around all before it. -/
theorem calledWith_concat (around : Option (List Element)) (links : List Link) (link : Link) :
    calledWith around (links ++ [link]) = calledWith link.arguments? links := by
  -- Only when it is the first link does it decide what is called.
  cases links <;> rfl

theorem accessesAlong_access (around : Option (List Element)) (links : List Link) (key : Key) :
    accessesAlong around (links ++ [.access key]) =
      accessesAlong none links ++ [⟨key, around⟩] := by
  -- The new access is the last one, and not a call of the one before it.
  induction links with
  | nil => rfl
  | cons link rest ih =>
    cases link <;> simp [accessesAlong, ih, calledWith_concat, Link.arguments?]

theorem accessesAlong_call (around : Option (List Element)) (links : List Link)
    (arguments : List Element) :
    accessesAlong around (links ++ [.call arguments]) = accessesAlong (some arguments) links := by
  -- The new call takes the place of what is around.
  induction links with
  | nil => rfl
  | cons link rest ih =>
    cases link <;> simp [accessesAlong, ih, calledWith_concat, Link.arguments?]

namespace Syntax.Expr

/-- Neither an access nor a call, and nothing in wrappers. -/
def isRoot : Expr → Bool
  | .member _ _ _ | .call _ _ _ | .wrapped _ _ _ => false
  | _ => true

/-- An expression goes on from another one by links. The first of them is made on that other one,
and each of the others on all before it, with any wrappers in between. -/
inductive Continues (start : Expr) : List Link → Expr → Prop where
  | start : Continues start [] start
  | access {links : List Link} {span : Span} {target : Expr} {key : Key}
      (inner : Continues start links target) :
      Continues start (links ++ [.access key]) (.member span target key)
  | call {links : List Link} {span : Span} {callee : Expr} {arguments : List Element}
      (inner : Continues start links callee) :
      Continues start (links ++ [.call arguments]) (.call span callee arguments)
  | wrapped {links : List Link} {span : Span} {wrapper : Wrapper} {e : Expr}
      (inner : Continues start links e) : Continues start links (.wrapped span wrapper e)

/-- The accesses of an expression, form by form. An access is one more at the tip. A call adds its
arguments to the access that it is made on; made on another call, it adds nothing. -/
def accessesOutward : Expr → List Access
  | .wrapped _ _ inner => inner.accessesOutward
  | .member _ target key => target.accessesOutward ++ [⟨key, none⟩]
  | .call _ callee arguments =>
    match callee.unwrap with
    | .member _ _ _ =>
      callee.accessesOutward.modifyLast fun access => { access with arguments := some arguments }
    | .call _ _ _ => callee.accessesOutward
    | _ => []
  | _ => []

variable {start e : Expr} {links : List Link}

/-- Every expression goes on from a root. -/
theorem exists_continues (e : Expr) :
    ∃ (root : Expr) (links : List Link), root.isRoot = true ∧ root.Continues links e := by
  -- The way inward ends where there is neither a link nor a wrapper.
  have inward : ∀ around : Option (List Element), ∃ (root : Expr) (links : List Link),
      root.isRoot = true ∧ root.Continues links e := by
    intro around
    fun_induction accessesInward around e with
    | case1 _ _ _ _ ih =>
      obtain ⟨root, links, isRoot, inner⟩ := ih
      exact ⟨root, _, isRoot, .access inner⟩
    | case2 _ _ _ _ ih =>
      obtain ⟨root, links, isRoot, inner⟩ := ih
      exact ⟨root, _, isRoot, .call inner⟩
    | case3 _ _ _ _ ih =>
      obtain ⟨root, links, isRoot, inner⟩ := ih
      exact ⟨root, links, isRoot, .wrapped inner⟩
    | case4 e _ _ _ _ => exact ⟨e, [], by cases e <;> simp_all [isRoot], .start⟩
  exact inward none

/-- The accesses of an expression that goes on from another one are those of that one, called with
what the links call it with, and then those along the links. -/
theorem Continues.reverse_accessesInward (continues : start.Continues links e)
    (around : Option (List Element)) :
    (accessesInward around e).reverse =
      (accessesInward (calledWith around links) start).reverse ++ accessesAlong around links := by
  -- The walk inward meets the last link first and takes its arguments along.
  induction continues generalizing around with
  | start => simp [accessesAlong, calledWith]
  | access _ ih =>
    simp [accessesInward, ih, calledWith_concat, accessesAlong_access, Link.arguments?]
  | call _ ih =>
    simp [accessesInward, ih, calledWith_concat, accessesAlong_call, Link.arguments?]
  | wrapped _ ih => exact ih around

/-- There are no accesses at a root. -/
theorem accessesInward_of_isRoot (around : Option (List Element)) (isRoot : start.isRoot = true) :
    accessesInward around start = [] := by
  cases start <;> first | rfl | cases isRoot

/-- The way inward comes to an access with the arguments around it, and to a callee with those of
the call, whatever was around that. -/
theorem accessesInward_eq (around : Option (List Element)) (e : Expr) :
    accessesInward around e =
      match e.unwrap with
      | .member _ target key => ⟨key, around⟩ :: accessesInward none target
      | .call _ callee arguments => accessesInward (some arguments) callee
      | _ => [] := by
  -- Nothing inside all wrappers is a wrapper.
  rw [← accessesInward_unwrap]
  have plain := e.unwrap_ne_wrapped
  cases stripped : e.unwrap with
  | wrapped span wrapper inner => exact absurd stripped (plain span wrapper inner)
  | _ => simp [accessesInward]

/-- A call adds its arguments to the access that it is made on. -/
theorem accesses_call (span : Span) (callee : Expr) (arguments : List Element) :
    (Expr.call span callee arguments).accesses =
      match callee.unwrap with
      | .member _ _ _ =>
        callee.accesses.modifyLast fun access => { access with arguments := some arguments }
      | .call _ _ _ => callee.accesses
      | _ => [] := by
  -- The ways inward from the callee, with the arguments and without, differ in the first access.
  rw [accesses, accesses, accessesInward, accessesInward_eq, accessesInward_eq none]
  cases callee.unwrap <;> simp [List.modifyLast_concat]

/-- The way inward gives the accesses that the recursion gives. -/
theorem accesses_eq_outward (e : Expr) : e.accesses = e.accessesOutward := by
  -- Each form has the equation that the recursion gives it.
  fun_induction accessesOutward e with
  | case1 span wrapper inner ih => rw [accesses_wrapped, ih]
  | case2 span target key ih => rw [accesses_member, ih]
  | case3 span callee arguments _ _ _ access ih => rw [accesses_call, access, ih]
  | case4 span callee arguments _ _ _ call ih => rw [accesses_call, call, ih]
  | case5 span callee arguments noAccess noCall =>
    rw [accesses_call]
    split
    · rename_i access
      exact absurd access (noAccess _ _ _)
    · rename_i call
      exact absurd call (noCall _ _ _)
    · rfl
  | case6 e => simp [accesses, accessesInward]

/-- The accesses of an expression are those of the recursion over its forms. They are the accesses
among the links by which it goes on from its root, in the same order, each with arguments exactly
when the next link is a call, which is then the one made directly on it. -/
theorem accesses_outward_along (e : Expr) :
    e.accesses = e.accessesOutward ∧
    (∃ (root : Expr) (links : List Link), root.isRoot = true ∧ root.Continues links e) ∧
    ∀ (root : Expr) (links : List Link), root.isRoot = true → root.Continues links e →
      e.accesses = accessesAlong none links := by
  -- The links and the recursion go through the same accesses.
  refine ⟨e.accesses_eq_outward, e.exists_continues, fun root links isRoot continues => ?_⟩
  -- The root adds no accesses to those along the links.
  rw [accesses, continues.reverse_accessesInward none, accessesInward_of_isRoot _ isRoot]
  rfl

end Syntax.Expr

end PropCatalog
