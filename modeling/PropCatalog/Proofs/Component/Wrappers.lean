import PropCatalog.Component.Discovery

/-! Components with wrappers around them. A call that makes a component from another one leaves the
kind of that as it is, as long as no more such calls stand around the definition than there are
functions that make them. -/

namespace PropCatalog

open Syntax

namespace Analysis

/-- A callee is a wrapper when it ends with the name of one and comes from React. -/
structure IsWrapper (analysis : Analysis) (callee : Expr) : Prop where
  named : ∃ name ∈ wrapperNames, callee.lastName? = some name
  fromReact : analysis.isFromReact callee = true

/-- An expression is made from another one by a number of calls of wrappers, each with what is made
so far as its first argument, and with any parentheses and type annotations in between. -/
inductive Wraps (analysis : Analysis) (inner : Expr) : Nat → Expr → Prop where
  | self : Wraps analysis inner 0 inner
  | call {count : Nat} {span : Span} {callee e : Expr} {rest : List Element}
      (wrapper : analysis.IsWrapper callee) (wraps : Wraps analysis inner count e) :
      Wraps analysis inner (count + 1) (.call span callee (.item e :: rest))
  | wrapped {count : Nat} {span : Span} {wrapper : Wrapper} {e : Expr}
      (wraps : Wraps analysis inner count e) : Wraps analysis inner count (.wrapped span wrapper e)

/-- An expression is the definition of a component itself: a call of `createClass`, the class of a
component, or a function that renders markup. -/
inductive Defines (analysis : Analysis) : Expr → ComponentKind → Prop where
  | specification {e callee : Expr} {span : Span} {arguments : List Element}
      {literal : ObjectLiteral} (call : e.unwrap = .call span callee arguments)
      (known : analysis.specification? callee arguments = some literal) :
      Defines analysis e (.specification literal)
  | class {e : Expr} {span : Span} {name : Option String} {definition : Syntax.Class}
      (form : e.unwrap = .class span name definition)
      (component : analysis.isComponentClass definition = true) :
      Defines analysis e (.class definition)
  | function {e : Expr} {span : Span} {name : Option String} {body : List Stmt}
      (form : e.unwrap = .function span name body) (renders : stmtsHaveMarkup body = true) :
      Defines analysis e .function
  | arrow {e : Expr} {span : Span} {parameters : List Pattern} {body : List Stmt}
      (form : e.unwrap = .arrow span parameters body) (renders : stmtsHaveMarkup body = true) :
      Defines analysis e .function

variable {analysis : Analysis} {callee inner e e' : Expr} {kind : ComponentKind}
  {count more calls : Nat}

/-- No wrapper makes components from object literals. -/
theorem IsWrapper.specification? (wrapper : analysis.IsWrapper callee) (arguments : List Element) :
    analysis.specification? callee arguments = none := by
  -- `createClass` is no name of a wrapper, and its module does not export React.
  obtain ⟨⟨name, among, named⟩, fromReact⟩ := wrapper
  have other : analysis.isCreateClass callee = false := by
    unfold isCreateClass
    unfold Expr.lastName? at named
    split
    · rename_i form
      simp only [form] at named
      simp only [wrapperNames, List.mem_cons, List.not_mem_nil, or_false] at among
      rcases among with rfl | rfl <;> simp [named]
    · rw [isFromReact, Option.any_eq_true] at fromReact
      obtain ⟨origin, known, react⟩ := fromReact
      rw [known]
      simp only [decide_eq_false_iff_not, Option.some.injEq]
      rintro rfl
      exact absurd react (by decide)
    · rfl
  rw [Analysis.specification?, other]
  rfl

/-- A wrapper makes a component from the first argument. -/
theorem IsWrapper.wrappedComponent? (wrapper : analysis.IsWrapper callee)
    (arguments : List Element) :
    analysis.wrappedComponent? callee arguments = firstArgument? arguments := by
  -- The callee has passed the check for a wrapper.
  obtain ⟨⟨name, among, named⟩, fromReact⟩ := wrapper
  rw [Analysis.wrappedComponent?, if_pos]
  rw [named, Option.any_some, fromReact, Bool.and_true]
  exact List.contains_iff_mem.2 among

theorem isWrapper_of_wrappedComponent? {arguments : List Element} {value : Expr}
    (found : analysis.wrappedComponent? callee arguments = some value) :
    analysis.IsWrapper callee ∧ ∃ rest, arguments = .item value :: rest := by
  -- There is a result only behind the check, and only when an argument is there.
  unfold Analysis.wrappedComponent? at found
  split at found
  · rename_i wrapper
    obtain ⟨named, fromReact⟩ := Bool.and_eq_true_iff.1 wrapper
    obtain ⟨name, last, among⟩ := (Option.any_eq_true _ _).1 named
    refine ⟨⟨⟨name, List.contains_iff_mem.1 among, last⟩, fromReact⟩, ?_⟩
    unfold firstArgument? at found
    split at found <;> cases found
    exact ⟨_, rfl⟩
  · cases found

/-- Only what is in the parentheses and type annotations decides what an expression defines. -/
theorem Defines.of_unwrap (same : e.unwrap = e'.unwrap) (defines : analysis.Defines e kind) :
    analysis.Defines e' kind := by
  -- Every form is asked of the expression without its parentheses and annotations.
  cases defines with
  | specification call known => exact .specification (same ▸ call) known
  | «class» form component => exact .class (same ▸ form) component
  | function form renders => exact .function (same ▸ form) renders
  | arrow form renders => exact .arrow (same ▸ form) renders

namespace Wraps

/-- Wrappers around wrappers add up. -/
theorem trans (first : analysis.Wraps inner count e) (second : analysis.Wraps e more e') :
    analysis.Wraps inner (count + more) e' := by
  -- The outer wrappers are taken off one by one.
  induction second with
  | self => exact first
  | call wrapper _ ih => exact .call wrapper ih
  | wrapped _ ih => exact .wrapped ih

/-- What is in the parentheses and type annotations has the wrappers. -/
theorem of_unwrap (wraps : analysis.Wraps inner count e.unwrap) : analysis.Wraps inner count e := by
  -- One layer after the other is put around the expression again.
  fun_induction Expr.unwrap e with
  | case1 _ _ _ ih => exact .wrapped (ih wraps)
  | case2 => exact wraps

/-- The outermost wrapper is in the parentheses and type annotations, or there is none. -/
theorem outermost (wraps : analysis.Wraps inner count e) :
    count = 0 ∧ inner.unwrap = e.unwrap ∨
      ∃ fewer span callee value rest, count = fewer + 1 ∧
        e.unwrap = .call span callee (.item value :: rest) ∧ analysis.IsWrapper callee ∧
        analysis.Wraps inner fewer value := by
  -- Layers that do not count are gone through to the first call.
  induction wraps with
  | self => exact .inl ⟨rfl, rfl⟩
  | call wrapper wraps _ =>
    exact .inr ⟨_, _, _, _, _, rfl, by rw [Expr.unwrap]; simp, wrapper, wraps⟩
  | wrapped _ ih =>
    rw [Expr.unwrap]
    exact ih

/-- A definition does not have a wrapper around it. -/
theorem not_defines {span : Span} {value : Expr} {rest : List Element}
    (form : e.unwrap = .call span callee (.item value :: rest))
    (wrapper : analysis.IsWrapper callee) : ¬ analysis.Defines e kind := by
  -- The one definition that is a call is no wrapper, and the other ones are no calls.
  intro defines
  cases defines with
  | specification call known =>
    obtain ⟨-, rfl, rfl⟩ := Expr.call.inj (form.symm.trans call)
    rw [wrapper.specification?] at known
    cases known
  | «class» other _ => simp [form] at other
  | function other _ => simp [form] at other
  | arrow other _ => simp [form] at other

end Wraps

/-- In one round, an expression defines a component itself, or it is a wrapper around what does. -/
theorem kindWithin?_succ_iff :
    analysis.kindWithin? (calls + 1) e = some kind ↔
      analysis.Defines e kind ∨ ∃ span callee value rest,
        e.unwrap = .call span callee (.item value :: rest) ∧ analysis.IsWrapper callee ∧
        analysis.kindWithin? calls value = some kind := by
  -- Each form is a case of the round, and only a call hands on to another expression.
  rw [kindWithin?]
  constructor
  · intro found
    -- A call makes a component from an object literal or from its first argument.
    split at found
    · rename_i form
      split at found
      · rename_i known
        cases found
        exact .inl (.specification form known)
      · obtain ⟨value, wrapped, within⟩ := Option.bind_eq_some_iff.1 found
        obtain ⟨wrapper, rest, rfl⟩ := isWrapper_of_wrappedComponent? wrapped
        exact .inr ⟨_, _, value, rest, form, wrapper, within⟩
    · rename_i form
      split at found <;> cases found
      rename_i component
      exact .inl (.class form component)
    · rename_i form
      split at found <;> cases found
      rename_i renders
      exact .inl (.function form renders)
    · rename_i form
      split at found <;> cases found
      rename_i renders
      exact .inl (.arrow form renders)
    · cases found
  · rintro (defines | ⟨span, callee, value, rest, form, wrapper, within⟩)
    · cases defines with
      | specification form known => simp only [form, known]
      | «class» form component => simp only [form, component, if_true]
      | function form renders => simp only [form, renders, if_true]
      | arrow form renders => simp only [form, renders, if_true]
    · simp only [form, wrapper.specification?, wrapper.wrappedComponent?, firstArgument?,
        Option.bind_some, within]

/-- In some rounds, a definition is found behind fewer wrappers than rounds. -/
theorem kindWithin?_eq_some_iff :
    analysis.kindWithin? calls e = some kind ↔
      ∃ inner count, analysis.Wraps inner count e ∧ analysis.Defines inner kind ∧
        count < calls := by
  -- Each round takes the outermost wrapper away.
  induction calls generalizing e with
  | zero => simp [kindWithin?]
  | succ calls ih =>
    rw [kindWithin?_succ_iff]
    constructor
    · rintro (defines | ⟨span, callee, value, rest, form, wrapper, within⟩)
      · exact ⟨e, 0, .self, defines, Nat.succ_pos _⟩
      · obtain ⟨inner, count, wraps, defines, fewer⟩ := ih.1 within
        exact ⟨inner, count + 1, .of_unwrap (form ▸ .call wrapper wraps), defines, by omega⟩
    · rintro ⟨inner, count, wraps, defines, fewer⟩
      rcases wraps.outermost with
        ⟨-, same⟩ | ⟨less, span, callee, value, rest, rfl, form, wrapper, wraps⟩
      · exact .inl (defines.of_unwrap same)
      · exact .inr ⟨span, callee, value, rest, form, wrapper,
          ih.2 ⟨inner, less, wraps, defines, by omega⟩⟩

/-- A definition has a certain number of wrappers around it. -/
theorem Wraps.unique {inner' : Expr} {count' : Nat} {kind' : ComponentKind}
    (wraps : analysis.Wraps inner count e) (defines : analysis.Defines inner kind)
    (wraps' : analysis.Wraps inner' count' e) (defines' : analysis.Defines inner' kind') :
    count = count' := by
  -- The outermost wrappers are the same call, as long as both have one.
  induction count generalizing e count' with
  | zero =>
    rcases wraps.outermost with ⟨-, same⟩ | ⟨_, _, _, _, _, some, _⟩
    · rcases wraps'.outermost with ⟨none, -⟩ | ⟨_, _, _, _, _, -, form, wrapper, -⟩
      · exact none.symm
      · exact absurd (defines.of_unwrap same) (not_defines form wrapper)
    · cases some
  | succ count ih =>
    rcases wraps.outermost with ⟨none, -⟩ | ⟨_, _, _, _, _, less, form, wrapper, wraps⟩
    · cases none
    · obtain rfl := Nat.succ.inj less
      rcases wraps'.outermost with ⟨-, same⟩ | ⟨_, _, _, _, _, rfl, form', -, wraps'⟩
      · exact absurd (defines'.of_unwrap same) (not_defines form wrapper)
      · obtain ⟨-, -, arguments⟩ := Expr.call.inj (form.symm.trans form')
        obtain rfl := Element.item.inj (List.cons.inj arguments).1
        rw [ih wraps wraps']

/-- Wrappers keep the kind of a component, with the object literal or class that defines it, as long
as there are in all no more of them around the definition than there are functions that make them:
around it are those that the expression has already, and those that are put around that. With more
of them, nothing is a component. -/
theorem kind?_wrapped (known : analysis.kind? e = some kind) :
    ∃ inner count, analysis.Wraps inner count e ∧ analysis.Defines inner kind ∧
      ∀ more e', analysis.Wraps e more e' →
        analysis.kind? e' = if count + more ≤ wrapperNames.length then some kind else none := by
  -- A definition has one way through wrappers to it, so that their number decides.
  obtain ⟨inner, count, wraps, defines, -⟩ := kindWithin?_eq_some_iff.1 known
  refine ⟨inner, count, wraps, defines, fun more e' further => ?_⟩
  have all := wraps.trans further
  split
  · rename_i few
    exact kindWithin?_eq_some_iff.2 ⟨inner, _, all, defines, Nat.lt_succ_of_le few⟩
  · -- Any other way to a definition would go through these wrappers, which are too many.
    rename_i many
    refine Option.eq_none_iff_forall_ne_some.2 fun other found => many ?_
    obtain ⟨_, _, wraps', defines', fewer⟩ := kindWithin?_eq_some_iff.1 found
    rw [all.unique defines wraps' defines']
    exact Nat.le_of_lt_succ fewer

namespace Layered

/-- `() => <b />`. -/
def badge : Expr :=
  .arrow ⟨85, 96⟩ [] [.return ⟨91, 96⟩ (some (.markup ⟨91, 96⟩))]

/-- `React.forwardRef` with a component. -/
def forwarded (e : Expr) : Expr :=
  .call ⟨e.span.lo - 17, e.span.hi + 1⟩
    (.member ⟨e.span.lo - 17, e.span.lo - 1⟩ (.name ⟨e.span.lo - 17, e.span.lo - 12⟩ "React")
      (.name "forwardRef"))
    [.item e]

/-- `memo` with a component. -/
def memoized (e : Expr) : Expr :=
  .call ⟨e.span.lo - 5, e.span.hi + 1⟩ (.name ⟨e.span.lo - 5, e.span.lo - 1⟩ "memo") [.item e]

/-- A module with a component in three wrappers. -/
def file : SourceFile where
  text := "import React, { memo } from 'react';\n" ++
    "export const Badge = memo(memo(React.forwardRef(() => <b />)));"
  module := ⟨[.importDecl ⟨0, 36⟩ false (some "react") ["React", "memo"],
    .exportDecl ⟨37, 100⟩
      (.variables [.mk (.name "Badge") (some (memoized (memoized (forwarded badge))))])]⟩
  comments := []

/-- The module with its scope. -/
def module : Analysis := ofFile file []

theorem wraps (e : Expr) : Layered.module.Wraps e 2 (memoized (forwarded e)) :=
  .call ⟨⟨"memo", by decide, by simp [Expr.lastName?, Expr.unwrap]⟩, rfl⟩
    (.call ⟨⟨"forwardRef", by decide, by simp [Expr.lastName?, Expr.unwrap, Key.accessed?]⟩, rfl⟩
      .self)

end Layered

/-- A function in both wrappers is a function component. -/
theorem kind?_wrapped_layered :
    Layered.module.kind? Layered.badge = some .function ∧
    Layered.module.Wraps Layered.badge 2 (Layered.memoized (Layered.forwarded Layered.badge)) ∧
    Layered.module.kind? (Layered.memoized (Layered.forwarded Layered.badge)) = some .function := by
  -- Nothing is around the function itself.
  have known : Layered.module.kind? Layered.badge = some .function := rfl
  obtain ⟨inner, count, wraps, defines, wrapped⟩ := kind?_wrapped known
  obtain rfl := wraps.unique defines .self (.arrow rfl rfl)
  exact ⟨known, Layered.wraps _, wrapped 2 _ (Layered.wraps _)⟩

/-- In a third wrapper, it is none. -/
theorem kind?_memoized_twice :
    Layered.module.kind? (Layered.memoized (Layered.forwarded Layered.badge)) = some .function ∧
    Layered.module.Wraps (Layered.memoized (Layered.forwarded Layered.badge)) 1
      (Layered.memoized (Layered.memoized (Layered.forwarded Layered.badge))) ∧
    Layered.module.kind?
      (Layered.memoized (Layered.memoized (Layered.forwarded Layered.badge))) = none ∧
    Layered.module.components.length = 0 := by
  -- The third wrapper is the only new thing, and its limit is met by evaluation.
  refine ⟨rfl, .call ⟨⟨"memo", by decide, ?_⟩, rfl⟩ .self, rfl, rfl⟩
  simp [Expr.lastName?, Expr.unwrap]

end Analysis

end PropCatalog
