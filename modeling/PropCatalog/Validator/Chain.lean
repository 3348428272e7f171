import PropCatalog.Syntax.Literal

/-! The accesses of a validator expression, from its root to its tip. -/

namespace PropCatalog

open Syntax

/-- One access of a chain, with the arguments of the call made directly on it. -/
structure Access where
  key : Key
  arguments : Option (List Element)

/-- The name of an access, where it is known without evaluation. -/
def Access.name? (access : Access) : Option String :=
  access.key.accessed?

/-- The accesses of an expression, the outermost first; `pending` are the arguments of a call just
around it. A call inside a call takes the place of the outer one. -/
def accessesInward (pending : Option (List Element)) : Expr → List Access
  | .member _ object key => ⟨key, pending⟩ :: accessesInward none object
  | .call _ callee arguments => accessesInward (some arguments) callee
  | .wrapped _ _ inner => accessesInward pending inner
  | _ => []

/-- The accesses of an expression from its root to its tip. -/
def Syntax.Expr.accesses (e : Expr) : List Access :=
  (accessesInward none e).reverse

/-- The innermost call or other expression under the accesses of a chain. -/
def Syntax.Expr.chainRoot : Expr → Expr
  | .wrapped _ _ inner => inner.chainRoot
  | .member _ target _ => target.chainRoot
  | other => other

/-- Wrappers around an expression do not change its accesses. -/
theorem Syntax.Expr.accesses_wrapped (span : Span) (wrapper : Wrapper) (inner : Expr) :
    (Expr.wrapped span wrapper inner).accesses = inner.accesses := by
  -- The walk passes through a wrapper.
  simp [Expr.accesses, accessesInward]

/-- An access adds one step at the tip. -/
theorem Syntax.Expr.accesses_member (span : Span) (object : Expr) (key : Key) :
    (Expr.member span object key).accesses = object.accesses ++ [⟨key, none⟩] := by
  -- The outermost access is the first one on the way inward.
  simp [Expr.accesses, accessesInward]

/-- Wrappers around a chain add no accesses to it. -/
theorem accessesInward_unwrap (pending : Option (List Element)) (e : Expr) :
    accessesInward pending e.unwrap = accessesInward pending e := by
  -- A wrapper is passed without an access.
  fun_induction Expr.unwrap e with
  | case1 _ _ _ ih => rw [ih, accessesInward]
  | case2 e _ => rfl

/-- Wrappers around a chain do not change its root. -/
theorem Syntax.Expr.chainRoot_unwrap (e : Expr) : e.unwrap.chainRoot = e.chainRoot := by
  -- A wrapper is passed on the way to the root.
  fun_induction Expr.unwrap e with
  | case1 _ _ _ ih => rw [ih, Expr.chainRoot]
  | case2 e _ => rfl

end PropCatalog
