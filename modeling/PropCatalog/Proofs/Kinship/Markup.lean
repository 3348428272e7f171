import PropCatalog.Component.Markup
import PropCatalog.Proofs.Kinship.Akin

/-! Trees that are akin have markup in the same pieces of syntax. -/

namespace PropCatalog.Syntax

variable {file other : SourceFile} {k : Kinship file other}

/-- Wrappers around an expression hold no markup themselves. -/
theorem Expr.hasMarkup_unwrap (e : Expr) : e.unwrap.hasMarkup = e.hasMarkup := by
  -- The wrappers are taken off one by one.
  fun_induction Expr.unwrap e with
  | case1 _ _ _ ih => rw [ih, Expr.hasMarkup]
  | case2 e _ => rfl

/-- A key that spells a text holds no markup. -/
theorem Key.hasMarkup_of_textAt? {place : KeyPlace} {key : Key} {text : String}
    (spelled : key.textAt? place = some text) : key.hasMarkup = false := by
  -- In brackets, a text is a string.
  have string : ∀ e : Expr, e.string? = some text → e.hasMarkup = false := by
    intro e known
    unfold Expr.string? at known
    rw [← e.hasMarkup_unwrap]
    generalize e.unwrap = inner at known
    cases inner with
    | string => rw [Expr.hasMarkup]
    | _ => cases known
  cases key with
  | computed e =>
    rw [Key.hasMarkup]
    cases place with
    | access => exact string e spelled
    | property => exact string e spelled
    | declaration => cases spelled
  | _ => simp [Key.hasMarkup]

mutual

-- The induction is on the rules by which two trees are akin.

theorem Expr.Akin.hasMarkup {e e' : Expr} : e.Akin k e' → e.hasMarkup = e'.hasMarkup
  | .inside same => by
    rw [← e.hasMarkup_unwrap, ← e'.hasMarkup_unwrap]
    exact same.hasMarkup

theorem Expr.SameRule.hasMarkup {e e' : Expr} : e.SameRule k e' → e.hasMarkup = e'.hasMarkup
  | .name _ | .string _ | .number _ | .constant | .markup => rfl
  | .template _ akin => by simp [Expr.hasMarkup, akin.hasMarkup]
  | .array akin => by simp [Expr.hasMarkup, akin.hasMarkup]
  | .object _ akin => by simp [Expr.hasMarkup, akin.hasMarkup]
  | .member objects keys => by simp [Expr.hasMarkup, objects.hasMarkup, keys.hasMarkup]
  | .call _ callees akin => by simp [Expr.hasMarkup, callees.hasMarkup, akin.hasMarkup]
  | .keywordCall akin => by simp [Expr.hasMarkup, akin.hasMarkup]
  | .assign _ targets values => by simp [Expr.hasMarkup, targets.hasMarkup, values.hasMarkup]
  | .function _ _ | .class _ _ => rfl
  | .arrow patterns bodies => by simp [Expr.hasMarkup, patterns.hasMarkup, bodies.hasMarkup]
  | .operation akin => by simp [Expr.hasMarkup, akin.hasMarkup]

theorem ExprsAkin.hasMarkup {es es' : List Expr} :
    ExprsAkin k es es' → exprsHaveMarkup es = exprsHaveMarkup es'
  | .nil => rfl
  | .cons first others => by simp [exprsHaveMarkup, first.hasMarkup, others.hasMarkup]

theorem OptionAkin.hasMarkup {e e' : Option Expr} :
    OptionAkin k e e' → optionHasMarkup e = optionHasMarkup e'
  | .none => rfl
  | .some akin => by simp [optionHasMarkup, akin.hasMarkup]

theorem Element.Akin.hasMarkup {element element' : Element} :
    element.Akin k element' → element.hasMarkup = element'.hasMarkup
  | .hole => rfl
  | .item akin | .spread akin => by simp [Element.hasMarkup, akin.hasMarkup]

theorem ElementsAkin.hasMarkup {elements elements' : List Element} :
    ElementsAkin k elements elements' → elementsHaveMarkup elements = elementsHaveMarkup elements'
  | .nil => rfl
  | .cons first others => by simp [elementsHaveMarkup, first.hasMarkup, others.hasMarkup]

theorem Property.Akin.hasMarkup {property property' : Property} :
    property.Akin k property' → property.hasMarkup = property'.hasMarkup
  | .pair _ keys akin => by simp [Property.hasMarkup, keys.hasMarkup, akin.hasMarkup]
  | .shorthand _ _ => rfl
  | .spread akin | .defaulted _ akin => by simp [Property.hasMarkup, akin.hasMarkup]
  | .method keys _ => by simp [Property.hasMarkup, keys.hasMarkup]
  | .getter keys bodies => by simp [Property.hasMarkup, keys.hasMarkup, bodies.hasMarkup]
  | .setter keys parameters bodies => by
    simp [Property.hasMarkup, keys.hasMarkup, parameters.hasMarkup, bodies.hasMarkup]

theorem PropertiesAkin.hasMarkup {properties properties' : List Property} :
    PropertiesAkin k properties properties' →
      propertiesHaveMarkup properties = propertiesHaveMarkup properties'
  | .nil => rfl
  | .cons first others => by simp [propertiesHaveMarkup, first.hasMarkup, others.hasMarkup]

theorem Key.Akin.hasMarkup {place : KeyPlace} {key key' : Key} :
    key.Akin k place key' → key.hasMarkup = key'.hasMarkup
  | .name _ | .string _ | .number _ | .bigInteger | .privateName _ => rfl
  | .computed akin => by simp [Key.hasMarkup, akin.hasMarkup]
  | .respelled _ spelled spelled' => by
    rw [Key.hasMarkup_of_textAt? spelled, Key.hasMarkup_of_textAt? spelled']

theorem Stmt.Akin.hasMarkup {statement statement' : Stmt} :
    statement.Akin k statement' → statement.hasMarkup = statement'.hasMarkup
  | .expr akin => by simp [Stmt.hasMarkup, akin.hasMarkup]
  | .return akin => by simp [Stmt.hasMarkup, akin.hasMarkup]
  | .decl akin => by simp [Stmt.hasMarkup, akin.hasMarkup]
  | .compound targets akin bodies => by
    simp [Stmt.hasMarkup, targets.hasMarkup, akin.hasMarkup, bodies.hasMarkup]

theorem StmtsAkin.hasMarkup {body body' : List Stmt} :
    StmtsAkin k body body' → stmtsHaveMarkup body = stmtsHaveMarkup body'
  | .nil => rfl
  | .cons first others => by simp [stmtsHaveMarkup, first.hasMarkup, others.hasMarkup]

theorem Decl.Akin.hasMarkup {declaration declaration' : Decl} :
    declaration.Akin k declaration' → declaration.hasMarkup = declaration'.hasMarkup
  | .class _ _ | .function _ _ => rfl
  | .declared akin => by simp [Decl.hasMarkup, akin.hasMarkup]
  | .other akin => by simp [Decl.hasMarkup, akin.hasMarkup]

theorem Declarator.Akin.hasMarkup {declarator declarator' : Declarator} :
    declarator.Akin k declarator' → declarator.hasMarkup = declarator'.hasMarkup
  | .mk targets akin => by simp [Declarator.hasMarkup, targets.hasMarkup, akin.hasMarkup]

theorem DeclaratorsAkin.hasMarkup {declarators declarators' : List Declarator} :
    DeclaratorsAkin k declarators declarators' →
      declaratorsHaveMarkup declarators = declaratorsHaveMarkup declarators'
  | .nil => rfl
  | .cons first others => by simp [declaratorsHaveMarkup, first.hasMarkup, others.hasMarkup]

theorem Pattern.Akin.hasMarkup {binding : Bool} {pattern pattern' : Pattern} :
    Pattern.Akin k binding pattern pattern' → pattern.hasMarkup = pattern'.hasMarkup
  | .name _ => rfl
  | .wrappedName (e := e) same => by
    rw [Pattern.hasMarkup, Pattern.hasMarkup, ← e.hasMarkup_unwrap, same, Expr.hasMarkup]
  | .unwrappedName (e := e) same => by
    rw [Pattern.hasMarkup, Pattern.hasMarkup, ← e.hasMarkup_unwrap, same, Expr.hasMarkup]
  | .expr akin => by simp [Pattern.hasMarkup, akin.hasMarkup]
  | .object akin => by simp [Pattern.hasMarkup, akin.hasMarkup]
  | .array akin => by simp [Pattern.hasMarkup, akin.hasMarkup]
  | .defaulted targets akin => by simp [Pattern.hasMarkup, targets.hasMarkup, akin.hasMarkup]
  | .rest targets => by simp [Pattern.hasMarkup, targets.hasMarkup]

theorem PatternsAkin.hasMarkup {binding : Bool} {patterns patterns' : List Pattern} :
    PatternsAkin k binding patterns patterns' →
      patternsHaveMarkup patterns = patternsHaveMarkup patterns'
  | .nil => rfl
  | .cons first others => by simp [patternsHaveMarkup, first.hasMarkup, others.hasMarkup]

theorem Field.Akin.hasMarkup {binding : Bool} {field field' : Field} :
    Field.Akin k binding field field' → field.hasMarkup = field'.hasMarkup
  | .shorthand _ akin => by simp [Field.hasMarkup, akin.hasMarkup]
  | .pair keys targets => by simp [Field.hasMarkup, keys.hasMarkup, targets.hasMarkup]
  | .rest targets => by simp [Field.hasMarkup, targets.hasMarkup]

theorem FieldsAkin.hasMarkup {binding : Bool} {fields fields' : List Field} :
    FieldsAkin k binding fields fields' → fieldsHaveMarkup fields = fieldsHaveMarkup fields'
  | .nil => rfl
  | .cons first others => by simp [fieldsHaveMarkup, first.hasMarkup, others.hasMarkup]

end

end PropCatalog.Syntax
