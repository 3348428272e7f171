import PropCatalog.Proofs.Scope.Subexpression

/-! Values are followed to their end: what stands for a value is neither a name nor inside of
wrappers, and it stands in the expression or in the module. -/

namespace PropCatalog

open Syntax

/-- Whether an expression is neither a name nor inside of wrappers. -/
structure Syntax.Expr.IsHead (e : Expr) : Prop where
  unnamed : ∀ span text, e ≠ .name span text
  bare : ∀ span wrapper inner, e ≠ .wrapped span wrapper inner

/-- There is nothing to unwrap. -/
theorem Syntax.Expr.IsHead.unwrap_eq {e : Expr} (head : e.IsHead) : e.unwrap = e := by
  -- A wrapper is no head.
  cases e with
  | wrapped span wrapper inner => exact absurd rfl (head.bare span wrapper inner)
  | _ => rfl

theorem Syntax.Expr.IsHead.isName_eq {e : Expr} (head : e.IsHead) : e.isName = false := by
  -- A name is no head.
  cases e with
  | name span text => exact absurd rfl (head.unnamed span text)
  | _ => rfl

/-- Whether an expression leads no further, as it is neither a name nor an access. -/
structure Syntax.Expr.IsEnd (e : Expr) : Prop where
  unnamed : ∀ span text, e ≠ .name span text
  settled : ∀ span object key, e ≠ .member span object key

namespace Scope

/-- Whatever is followed, what is found is a head. -/
theorem keeps_isHead (scope : Scope) : scope.Keeps (fun _ => True) Expr.IsHead where
  value _ _ _ := trivial
  property _ _ _ _ := trivial
  static _ _ _ _ _ _ := trivial
  assigned _ _ _ _ := trivial
  target _ _ _ _ _ _ := trivial
  literal _ _ _ _ _ _ _ _ := trivial
  stops e _ unnamed := ⟨unnamed, e.unwrap_ne_wrapped⟩

/-- What leads no further stands for all expressions with it inside their wrappers. -/
theorem valueWithin_of_isEnd (scope : Scope) (steps : Nat) {e : Expr} (ends : e.unwrap.IsEnd) :
    scope.valueWithin (steps + 1) e = some e.unwrap := by
  -- The expression is neither a name nor an access, so that the first step stops at it.
  rw [valueWithin]
  split
  · rename_i span text same
    exact absurd same (ends.unnamed span text)
  · rename_i span object key same
    exact absurd same (ends.settled span object key)
  · rfl

/-- It stands for a name that is bound to such an expression, too. -/
theorem value?_of_bound (scope : Scope) {e bound : Expr} {span : Span} {name : String}
    (same : e.unwrap = .name span name) (known : scope.get? name = some (.value bound))
    (ends : bound.unwrap.IsEnd) : scope.value? e = some bound.unwrap := by
  -- One step leads from the name to what it is bound to, and enough of them are left for that.
  rw [Scope.value?, valueWithin, same]
  dsimp only
  rw [followName, known]
  exact scope.valueWithin_of_isEnd (depthLimit - 1) ends

/-- A head that is no access stands for itself. -/
theorem value?_of_isHead (scope : Scope) {v : Expr} (head : v.IsHead)
    (settled : ∀ span object key, v ≠ .member span object key) : scope.value? v = some v := by
  -- A head that is no access leads no further.
  have ends : v.unwrap.IsEnd := head.unwrap_eq.symm ▸ ⟨head.unnamed, settled⟩
  rw [Scope.value?, scope.valueWithin_of_isEnd depthLimit ends, head.unwrap_eq]

/-! ## Places -/

variable {source : Module} {known : List Expr} {pieces : List Piece} {v : Expr}

/-- What is found among parts of some pieces and of the scope of a module occurs in these pieces or
in the module. -/
theorem occursIn_of_head (head : v.IsHead) (part : v ∈ known ++ (ofModule source).parts)
    (own : v ∈ known → OccursIn pieces v) : OccursIn pieces v ∨ OccursIn source.pieces v :=
  (List.mem_append.mp part).imp own fun part => occursIn_of_mem_parts_ofModule part head.isName_eq

/-- Whether an expression is where the values of a module end: it is a head, stands in some pieces
or in the module, and stands for itself unless it is an access. -/
structure EndsAt (source : Module) (pieces : List Piece) (v : Expr) : Prop where
  head : v.IsHead
  occurs : OccursIn pieces v ∨ OccursIn source.pieces v
  settled : (∀ span object key, v ≠ .member span object key) → (ofModule source).value? v = some v

/-- What stands for the value of an expression is neither a name nor inside of wrappers. It is a
subexpression of the expression or of the module, and it stands for its own value, too, unless it is
an access. The same is true of what is found for a property of an object literal. In turn, what
leads no further is the value of each expression with it inside its wrappers, and of each name that
is bound to one. -/
theorem value?_endsAt (source : Module) :
    (∀ e v, (ofModule source).value? e = some v → EndsAt source [.expr e] v) ∧
    (∀ literal name v, (ofModule source).property? literal name = some v →
      EndsAt source (literal.properties.map .property) v) ∧
    (∀ e : Expr, e.unwrap.IsEnd → (ofModule source).value? e = some e.unwrap) ∧
    ∀ (e : Expr) span name (bound : Expr), e.unwrap = .name span name →
      (ofModule source).get? name = some (.value bound) → bound.unwrap.IsEnd →
      (ofModule source).value? e = some bound.unwrap := by
  -- Values and what is found in literals are heads, by the same induction over the steps.
  obtain ⟨values, literals⟩ := (ofModule source).keeps_isHead.within (depthLimit + 1)
  refine ⟨fun e v found => ?_, fun literal name v found => ?_, fun e ends => ?_,
    fun e span name bound same known ends => ?_⟩
  · -- The value is a head, and a part of the expression or of the scope.
    have head := values e v trivial found
    have part := ((ofModule source).holds_parts e).value? e v (List.subset_append_left _ _) found
    refine ⟨head, ?_, (ofModule source).value?_of_isHead head⟩
    exact occursIn_of_head head part fun own => Expr.occursIn_of_mem_parts v e own head.isName_eq
  · -- What is found in the literal is a part of its properties or of the scope.
    have head := literals name literal [] v (fun _ _ _ _ => trivial) found
    have holds : (ofModule source).Holds
        (partsOfProperties literal.properties ++ (ofModule source).parts) :=
      ⟨.append (fun x => partsOfProperties_subset x _) (ofModule source).partsClosed,
        List.subset_append_right _ _⟩
    have part := (holds.within (depthLimit + 1)).2 name literal [] v
      (List.subset_append_left _ _) found
    refine ⟨head, ?_, (ofModule source).value?_of_isHead head⟩
    exact occursIn_of_head head part fun own =>
      occursIn_of_mem_properties v literal.properties own head.isName_eq
  · exact (ofModule source).valueWithin_of_isEnd depthLimit ends
  · exact (ofModule source).value?_of_bound same known ends

namespace Endless

/-- The list `[first]`. -/
def list : Expr :=
  .array ⟨69, 76⟩ [.item (.name ⟨70, 75⟩ "first")]

/-- The literal `{ x: first.x, y: ([first]) }`. -/
def second : ObjectLiteral where
  span := ⟨51, 81⟩
  properties := [
    .pair 53 (.name "x") (.member ⟨56, 63⟩ (.name ⟨56, 61⟩ "first") (.name "x")),
    .pair 65 (.name "y") (.wrapped ⟨68, 77⟩ .parentheses list)]

/-- The access `second.x`. -/
def onward : Expr :=
  .member ⟨18, 26⟩ (.name ⟨18, 24⟩ "second") (.name "x")

/-- The module `var first = { x: second.x, y: first }; var second = { x: first.x, y: ([first]) };`.
-/
def circle : Module where
  items := [
    .stmt (.decl ⟨1, 37⟩ (.variables [.mk (.name "first") (some (.object ⟨13, 36⟩ [
      .pair 15 (.name "x") onward, .pair 28 (.name "y") (.name ⟨31, 36⟩ "first")]))])),
    .stmt (.decl ⟨38, 82⟩ (.variables [.mk (.name "second")
      (some (.object second.span second.properties))]))]

/-- The expression `second!`. -/
def aliased : Expr :=
  .wrapped ⟨84, 91⟩ .nonNull (.name ⟨84, 90⟩ "second")

/-- The expression `(second!.y)`. -/
def access : Expr :=
  .wrapped ⟨83, 94⟩ .parentheses (.member ⟨84, 93⟩ aliased (.name "y"))

theorem isEnd_literal : Expr.IsEnd (.object second.span second.properties) where
  unnamed := nofun
  settled := nofun

theorem isEnd_list : list.IsEnd where
  unnamed := nofun
  settled := nofun

end Endless

/-- Behind wrappers and a name there is a list, and where accesses lead in a circle, the last one
that is followed stands for itself. -/
theorem value?_endsAt_endless :
    (ofModule Endless.circle).value? Endless.access = some Endless.list ∧
    EndsAt Endless.circle [.expr Endless.access] Endless.list ∧
    (ofModule Endless.circle).property? Endless.second "x" = some Endless.onward ∧
    EndsAt Endless.circle (Endless.second.properties.map .property) Endless.onward ∧
    (ofModule Endless.circle).value? (.wrapped ⟨68, 77⟩ .parentheses Endless.list) =
      some Endless.list ∧
    (ofModule Endless.circle).value? Endless.aliased =
      some (.object Endless.second.span Endless.second.properties) := by
  -- The values are found by evaluation, and the theorem tells what they are.
  obtain ⟨values, properties, wrapped, bound⟩ := value?_endsAt Endless.circle
  exact ⟨rfl, values Endless.access _ rfl, rfl, properties Endless.second "x" _ rfl,
    wrapped _ Endless.isEnd_list, bound Endless.aliased _ _ _ rfl rfl Endless.isEnd_literal⟩

end Scope

end PropCatalog
