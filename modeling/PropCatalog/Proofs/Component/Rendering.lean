import Mathlib.Logic.Relation
import PropCatalog.Component.Markup

/-! Functions that render markup. What a body shows is told by the parts that belong to the function
alone. What is found in it is more: arrow functions, getters and setters in the body are looked into
as well. -/

namespace PropCatalog.Syntax

open Relation (ReflTransGen)

/-- A piece of a syntax tree. -/
inductive Piece where
  | expr (e : Expr)
  | element (element : Element)
  | property (property : Property)
  | key (key : Key)
  | stmt (statement : Stmt)
  | decl (declaration : Decl)
  | declarator (declarator : Declarator)
  | pattern (pattern : Pattern)
  | field (field : Field)

namespace Piece

/-- The pieces that a piece is made of and that belong to the same function. A function keeps its
parameters and its body to itself, whatever its form, and a class keeps everything. -/
def own : Piece → List Piece
  | .expr (.template _ _ holes) => holes.map .expr
  | .expr (.array _ elements) => elements.map .element
  | .expr (.object _ properties) => properties.map .property
  | .expr (.member _ target k) => [.expr target, .key k]
  | .expr (.call _ callee arguments) => .expr callee :: arguments.map .element
  | .expr (.keywordCall _ arguments) => arguments.map .element
  | .expr (.assign _ _ target value) => [.pattern target, .expr value]
  | .expr (.wrapped _ _ inner) => [.expr inner]
  | .expr (.operation _ operands) => operands.map .expr
  | .element (.item value) | .element (.spread value) => [.expr value]
  | .property (.pair _ k value) => [.key k, .expr value]
  | .property (.spread value) | .property (.defaulted _ _ value) => [.expr value]
  | .property (.method _ k _) | .property (.getter _ k _) | .property (.setter _ k _ _) => [.key k]
  | .key (.computed value) => [.expr value]
  | .stmt (.expr _ value) => [.expr value]
  | .stmt (.return _ value) => value.toList.map .expr
  | .stmt (.decl _ declaration) => [.decl declaration]
  | .stmt (.compound _ patterns operands body) =>
    patterns.map .pattern ++ operands.map .expr ++ body.map .stmt
  | .decl (.variables declarators) => declarators.map .declarator
  | .decl (.other operands) => operands.map .expr
  | .declarator (.mk target value) => .pattern target :: value.toList.map .expr
  | .pattern (.object fields) => fields.map .field
  | .pattern (.array elements) => elements.map .pattern
  | .pattern (.defaulted target value) => [.pattern target, .expr value]
  | .pattern (.rest target) => [.pattern target]
  | .pattern (.expr value) => [.expr value]
  | .field (.shorthand _ value) => value.toList.map .expr
  | .field (.pair k target) => [.key k, .pattern target]
  | .field (.rest target) => [.pattern target]
  -- Names and constants have no parts, and functions, classes and markup do not show theirs.
  | _ => []

/-- The pieces inside of an arrow function, or of a getter or setter of an object literal. -/
def lent : Piece → List Piece
  | .expr (.arrow _ parameters body) => parameters.map .pattern ++ body.map .stmt
  | .property (.getter _ _ body) => body.map .stmt
  | .property (.setter _ _ parameter body) => .pattern parameter :: body.map .stmt
  -- Methods of object literals keep theirs, as other functions do.
  | _ => []

/-- Whether markup occurs in a piece. -/
def hasMarkup : Piece → Bool
  | .expr e => e.hasMarkup
  | .element item => item.hasMarkup
  | .property entry => entry.hasMarkup
  | .key k => k.hasMarkup
  | .stmt statement => statement.hasMarkup
  | .decl declaration => declaration.hasMarkup
  | .declarator binding => binding.hasMarkup
  | .pattern target => target.hasMarkup
  | .field entry => entry.hasMarkup

/-- Whether a piece is markup itself. -/
def isMarkup : Piece → Bool
  | .expr (.markup _) => true
  | _ => false

end Piece

/-- Markup occurs in a list of pieces when it occurs in one of them. -/
theorem any_of_rules {α : Type} {all : List α → Bool} {each : α → Bool} (nil : all [] = false)
    (cons : ∀ first rest, all (first :: rest) = (each first || all rest)) (pieces : List α) :
    all pieces = pieces.any each := by
  -- The two rules are those of the search for one of them.
  induction pieces with
  | nil => exact nil
  | cons first rest ih => rw [cons, ih, List.any_cons]

theorem exprsHaveMarkup_eq_any (es : List Expr) : exprsHaveMarkup es = es.any Expr.hasMarkup :=
  any_of_rules rfl (fun _ _ => rfl) es

theorem elementsHaveMarkup_eq_any (elements : List Element) :
    elementsHaveMarkup elements = elements.any Element.hasMarkup :=
  any_of_rules rfl (fun _ _ => rfl) elements

theorem propertiesHaveMarkup_eq_any (properties : List Property) :
    propertiesHaveMarkup properties = properties.any Property.hasMarkup :=
  any_of_rules rfl (fun _ _ => rfl) properties

theorem stmtsHaveMarkup_eq_any (body : List Stmt) :
    stmtsHaveMarkup body = body.any Stmt.hasMarkup :=
  any_of_rules rfl (fun _ _ => rfl) body

theorem declaratorsHaveMarkup_eq_any (declarators : List Declarator) :
    declaratorsHaveMarkup declarators = declarators.any Declarator.hasMarkup :=
  any_of_rules rfl (fun _ _ => rfl) declarators

theorem patternsHaveMarkup_eq_any (patterns : List Pattern) :
    patternsHaveMarkup patterns = patterns.any Pattern.hasMarkup :=
  any_of_rules rfl (fun _ _ => rfl) patterns

theorem fieldsHaveMarkup_eq_any (fields : List Field) :
    fieldsHaveMarkup fields = fields.any Field.hasMarkup :=
  any_of_rules rfl (fun _ _ => rfl) fields

theorem optionHasMarkup_eq_any (value : Option Expr) :
    optionHasMarkup value = value.toList.any Expr.hasMarkup := by
  cases value <;> simp [optionHasMarkup]

namespace Piece

/-- Markup occurs in a piece that is markup, and in one with a part in which it occurs. -/
theorem hasMarkup_eq (piece : Piece) :
    piece.hasMarkup = (piece.isMarkup || (piece.own ++ piece.lent).any hasMarkup) := by
  -- Form by form, the search goes through what the piece owns and what it lends.
  cases piece with
  | expr e =>
    cases e <;>
      simp [hasMarkup, isMarkup, own, lent, Expr.hasMarkup, Function.comp_def,
        exprsHaveMarkup_eq_any, elementsHaveMarkup_eq_any, propertiesHaveMarkup_eq_any,
        patternsHaveMarkup_eq_any, stmtsHaveMarkup_eq_any]
  | element item => cases item <;> simp [hasMarkup, isMarkup, own, lent, Element.hasMarkup]
  | property entry =>
    cases entry <;>
      simp [hasMarkup, isMarkup, own, lent, Property.hasMarkup, Function.comp_def, Bool.or_assoc,
        stmtsHaveMarkup_eq_any]
  | key k => cases k <;> simp [hasMarkup, isMarkup, own, lent, Key.hasMarkup]
  | stmt statement =>
    cases statement <;>
      simp [hasMarkup, isMarkup, own, lent, Stmt.hasMarkup, Function.comp_def, Bool.or_assoc,
        optionHasMarkup_eq_any, patternsHaveMarkup_eq_any, exprsHaveMarkup_eq_any,
        stmtsHaveMarkup_eq_any]
  | decl declaration =>
    cases declaration <;>
      simp [hasMarkup, isMarkup, own, lent, Decl.hasMarkup, Function.comp_def,
        declaratorsHaveMarkup_eq_any, exprsHaveMarkup_eq_any]
  | declarator binding =>
    cases binding
    simp [hasMarkup, isMarkup, own, lent, Declarator.hasMarkup, Function.comp_def,
      optionHasMarkup_eq_any]
  | pattern target =>
    cases target <;>
      simp [hasMarkup, isMarkup, own, lent, Pattern.hasMarkup, Function.comp_def,
        fieldsHaveMarkup_eq_any, patternsHaveMarkup_eq_any]
  | field entry =>
    cases entry <;>
      simp [hasMarkup, isMarkup, own, lent, Field.hasMarkup, Function.comp_def,
        optionHasMarkup_eq_any]

/-- The parts of a piece are smaller than that. -/
theorem sizeOf_lt {piece part : Piece} (member : part ∈ piece.own ++ piece.lent) :
    sizeOf part < sizeOf piece := by
  -- A part is a field of the piece, or in a list that is one.
  cases piece with
  | expr e => cases e <;> simp [own, lent] at member <;> grind [→ List.sizeOf_lt_of_mem]
  | element item => cases item <;> simp [own, lent] at member <;> grind
  | property entry => cases entry <;> simp [own, lent] at member <;> grind [→ List.sizeOf_lt_of_mem]
  | key k => cases k <;> simp [own, lent] at member <;> grind
  | stmt statement =>
    cases statement <;> simp [own, lent] at member <;> grind [→ List.sizeOf_lt_of_mem]
  | decl declaration =>
    cases declaration <;> simp [own, lent] at member <;> grind [→ List.sizeOf_lt_of_mem]
  | declarator binding => cases binding; simp [own, lent] at member; grind
  | pattern target =>
    cases target <;> simp [own, lent] at member <;> grind [→ List.sizeOf_lt_of_mem]
  | field entry => cases entry <;> simp [own, lent] at member <;> grind

/-- A piece is a part of another one within the same function. -/
def Owns (outer inner : Piece) : Prop :=
  inner ∈ outer.own

/-- A piece is a part of another one, or inside of one that is an arrow function or an accessor. -/
def Enters (outer inner : Piece) : Prop :=
  inner ∈ outer.own ++ outer.lent

/-- Markup occurs in a piece exactly when a way through parts, arrow functions and accessors leads
to it. -/
theorem hasMarkup_iff (piece : Piece) :
    piece.hasMarkup = true ↔ ∃ found, ReflTransGen Enters piece found ∧ found.isMarkup = true := by
  -- What occurs inside is reached one part after the other, down to what is markup itself.
  constructor
  · intro occurs
    rw [hasMarkup_eq, Bool.or_eq_true, List.any_eq_true] at occurs
    rcases occurs with here | ⟨part, member, inside⟩
    · exact ⟨piece, .refl, here⟩
    · -- The parts are smaller, so that the way through them comes to an end.
      have smaller := sizeOf_lt member
      obtain ⟨found, way, markup⟩ := (hasMarkup_iff part).1 inside
      exact ⟨found, .head member way, markup⟩
  · rintro ⟨found, way, markup⟩
    induction way using ReflTransGen.head_induction_on with
    | refl => rw [hasMarkup_eq, markup, Bool.true_or]
    | head member _ ih =>
      rw [hasMarkup_eq, Bool.or_eq_true, List.any_eq_true]
      exact .inr ⟨_, member, ih⟩
termination_by sizeOf piece

/-- A way stays within the function, or goes into an arrow function or accessor of that at some
point. -/
theorem owns_or_lent {piece found : Piece} :
    ReflTransGen Enters piece found ↔ ReflTransGen Owns piece found ∨
      ∃ holder part, ReflTransGen Owns piece holder ∧ part ∈ holder.lent ∧
        ReflTransGen Enters part found := by
  -- Every step of a way goes to a part of the function, or to one of what it lends.
  have wider : Owns ≤ Enters := fun _ _ member => List.mem_append_left _ member
  have widen {piece found : Piece} (way : ReflTransGen Owns piece found) :
      ReflTransGen Enters piece found := ReflTransGen.mono wider _ _ way
  constructor
  · -- The first step that leaves the function splits the way.
    intro way
    induction way using ReflTransGen.head_induction_on with
    | refl => exact .inl .refl
    | @head piece next member rest ih =>
      rcases List.mem_append.1 member with own | lent
      · exact ih.imp (.head own) fun ⟨holder, part, way, lent, inside⟩ =>
          ⟨holder, part, .head own way, lent, inside⟩
      · exact .inr ⟨piece, next, .refl, lent, rest⟩
  · rintro (way | ⟨holder, part, way, lent, inside⟩)
    · exact widen way
    · exact (widen way).trans (.head (List.mem_append_right _ lent) inside)

end Piece

open Piece (Owns Enters)

/-- Whether markup occurs in the body of a function outside of the functions and classes in it:
neither in a function, an arrow function, a method, a getter or a setter, nor in a class. -/
def ShowsMarkup (body : List Stmt) : Prop :=
  ∃ statement ∈ body, ∃ found, ReflTransGen Owns (.stmt statement) found ∧ found.isMarkup = true

/-- Whether markup occurs inside of arrow functions, getters and setters of object literals in the
body of a function, or of those in them, but not inside of any other function or class. -/
def LendsMarkup (body : List Stmt) : Prop :=
  ∃ statement ∈ body, ∃ holder part found, ReflTransGen Owns (.stmt statement) holder ∧
    part ∈ holder.lent ∧ ReflTransGen Enters part found ∧ found.isMarkup = true

/-- Markup is found in a body that shows or lends some. -/
theorem stmtsHaveMarkup_iff (body : List Stmt) :
    stmtsHaveMarkup body = true ↔ ShowsMarkup body ∨ LendsMarkup body := by
  -- A way from a statement to markup stays within the function, or leaves it on the way.
  rw [stmtsHaveMarkup_eq_any, List.any_eq_true]
  constructor
  · rintro ⟨statement, member, occurs⟩
    obtain ⟨found, way, markup⟩ := (Piece.hasMarkup_iff (.stmt statement)).1 occurs
    rcases Piece.owns_or_lent.1 way with own | ⟨holder, part, own, lent, inside⟩
    · exact .inl ⟨statement, member, found, own, markup⟩
    · exact .inr ⟨statement, member, holder, part, found, own, lent, inside, markup⟩
  · rintro (⟨statement, member, found, own, markup⟩ |
      ⟨statement, member, holder, part, found, own, lent, inside, markup⟩)
    · exact ⟨statement, member, (Piece.hasMarkup_iff (.stmt statement)).2
        ⟨found, Piece.owns_or_lent.2 (.inl own), markup⟩⟩
    · exact ⟨statement, member, (Piece.hasMarkup_iff (.stmt statement)).2
        ⟨found, Piece.owns_or_lent.2 (.inr ⟨holder, part, own, lent, inside⟩), markup⟩⟩

/-- A function is taken to render markup exactly when its body shows some or lends some to arrow
functions and accessors. So it renders markup exactly when its body shows some, unless only arrow
functions and accessors in the body have some. -/
theorem renders_iff_shows_iff (body : List Stmt) :
    (stmtsHaveMarkup body = true ↔ ShowsMarkup body ∨ LendsMarkup body) ∧
    ((stmtsHaveMarkup body = true ↔ ShowsMarkup body) ↔
      (LendsMarkup body → ShowsMarkup body)) := by
  -- What the function does not show itself is what it lends.
  refine ⟨stmtsHaveMarkup_iff body, ?_⟩
  rw [stmtsHaveMarkup_iff]
  constructor
  · intro same lends
    exact same.1 (.inr lends)
  · intro shown
    exact ⟨fun found => found.elim id shown, .inl⟩

/-- A body shows no markup when none is among some pieces that hold its statements and each other's
parts. -/
theorem not_showsMarkup {body : List Stmt} (pieces : List Piece)
    (start : ∀ statement ∈ body, .stmt statement ∈ pieces)
    (closed : ∀ outer ∈ pieces, ∀ inner ∈ outer.own, inner ∈ pieces)
    (plain : ∀ piece ∈ pieces, piece.isMarkup = false) : ¬ ShowsMarkup body := by
  -- No way through parts leads out of the pieces.
  rintro ⟨statement, member, found, way, markup⟩
  have among {found : Piece} (way : ReflTransGen Owns (.stmt statement) found) :
      found ∈ pieces := by
    induction way with
    | refl => exact start statement member
    | tail _ part ih => exact closed _ ih _ part
  rw [plain found (among way)] at markup
  cases markup

namespace Lent

/-- `get icon() { return <b />; }` in an object literal. -/
def icon : Property :=
  .getter 28 (.name "icon") [.return ⟨41, 54⟩ (some (.markup ⟨48, 53⟩))]

/-- `return { get icon() { return <b />; } };` in a function. -/
def accessor : List Stmt :=
  [.return ⟨19, 59⟩ (some (.object ⟨26, 58⟩ [icon]))]

/-- `() => <b />`. -/
def arrow : Expr :=
  .arrow ⟨94, 105⟩ [] [.return ⟨100, 105⟩ (some (.markup ⟨100, 105⟩))]

/-- `const item = () => <b />; return null;` in a function. -/
def callback : List Stmt :=
  [.decl ⟨81, 106⟩ (.variables [.mk (.name "item") (some arrow)]),
    .return ⟨107, 119⟩ (some (.constant ⟨114, 118⟩))]

end Lent

/-- Functions without markup of their own are found to render some because of an accessor or an
arrow function. -/
theorem stmtsHaveMarkup_lent :
    stmtsHaveMarkup Lent.accessor = true ∧ ¬ ShowsMarkup Lent.accessor ∧
    stmtsHaveMarkup Lent.callback = true ∧ ¬ ShowsMarkup Lent.callback := by
  -- All that belongs to each function is listed, and no markup is among it.
  refine ⟨rfl, ?_, rfl, ?_⟩
  · refine not_showsMarkup (Lent.accessor.map .stmt ++
      [.expr (.object ⟨26, 58⟩ [Lent.icon]), .property Lent.icon, .key (.name "icon")]) ?_ ?_ ?_ <;>
    simp [Lent.accessor, Lent.icon, Piece.own, Piece.isMarkup]
  · refine not_showsMarkup (Lent.callback.map .stmt ++
      [.decl (.variables [.mk (.name "item") (some Lent.arrow)]),
        .declarator (.mk (.name "item") (some Lent.arrow)), .pattern (.name "item"),
        .expr Lent.arrow, .expr (.constant ⟨114, 118⟩)]) ?_ ?_ ?_ <;>
    simp [Lent.callback, Lent.arrow, Piece.own, Piece.isMarkup]

end PropCatalog.Syntax
