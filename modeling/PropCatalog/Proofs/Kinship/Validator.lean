import PropCatalog.Proofs.Kinship.Value
import PropCatalog.Proofs.Scope.Parts
import PropCatalog.Validator.Reading

/-! Validators that are akin: they are decided by the same access or root, and describe types that
differ in printed texts only. -/

namespace PropCatalog

open Syntax

variable {file other : SourceFile} {k : Kinship file other}

/-- Two accesses are akin when their keys are, and arguments that are akin stand at both or at
none. -/
structure Access.Akin (k : Kinship file other) (access access' : Access) : Prop where
  keys : access.key.Akin k .access access'.key
  arguments : Option.Rel (ElementsAkin k) access.arguments access'.arguments

/-- Two verdicts are akin when they name the same validator with arguments that are akin. -/
inductive Verdict.Akin (k : Kinship file other) : Verdict → Verdict → Prop
  | simple (kind : SimpleKind) : Verdict.Akin k (.simple kind) (.simple kind)
  | call (kind : CallKind) {arguments arguments' : List Element}
    (akin : ElementsAkin k arguments arguments') :
    Verdict.Akin k (.call kind arguments) (.call kind arguments')

namespace Syntax

variable {e e' : Expr}

mutual

-- The induction is on the rules by which two chains are akin, from the tip to the root.

/-- Chains that are akin have accesses that are akin. -/
theorem Expr.Akin.accessesInward {pending pending' : Option (List Element)}
    (around : Option.Rel (ElementsAkin k) pending pending') {e e' : Expr} : e.Akin k e' →
      List.Forall₂ (Access.Akin k) (accessesInward pending e) (accessesInward pending' e')
  | .inside same => by
    rw [← accessesInward_unwrap, ← accessesInward_unwrap pending' e']
    exact same.accessesInward around

theorem Expr.SameRule.accessesInward {pending pending' : Option (List Element)}
    (around : Option.Rel (ElementsAkin k) pending pending') {e e' : Expr} : e.SameRule k e' →
      List.Forall₂ (Access.Akin k) (accessesInward pending e) (accessesInward pending' e')
  | .member objects keys => .cons ⟨keys, around⟩ (objects.accessesInward .none)
  | .call _ callees akin => callees.accessesInward (.some akin)
  | .name _ | .string _ | .number _ | .constant | .template _ _ | .array _ | .object _ _
  | .keywordCall _ | .assign _ _ _ | .function _ _ | .arrow _ _ | .class _ _ | .markup
  | .operation _ => .nil

end

mutual

/-- Chains that are akin have roots of the same form. -/
theorem Expr.Akin.chainRoot {e e' : Expr} :
    e.Akin k e' → Expr.SameRule k e.chainRoot e'.chainRoot
  | .inside same => by
    rw [← e.chainRoot_unwrap, ← e'.chainRoot_unwrap]
    exact same.chainRoot

theorem Expr.SameRule.chainRoot {e e' : Expr} :
    e.SameRule k e' → Expr.SameRule k e.chainRoot e'.chainRoot
  | .member objects _ => objects.chainRoot
  | .name _ => .name _
  | .string _ => .string _
  | .number _ => .number _
  | .constant => .constant
  | .template _ akin => .template _ akin
  | .array akin => .array akin
  | .object matched akin => .object matched akin
  | .call requires callees akin => .call requires callees akin
  | .keywordCall akin => .keywordCall akin
  | .assign _ targets values => .assign _ targets values
  | .function _ bodies => .function _ bodies
  | .arrow patterns bodies => .arrow patterns bodies
  | .class _ akin => .class _ akin
  | .markup => .markup
  | .operation akin => .operation akin

end

/-- Chains that are akin have accesses that are akin, from the root to the tip. -/
theorem Expr.Akin.accesses (akin : e.Akin k e') :
    List.Forall₂ (Access.Akin k) e.accesses e'.accesses :=
  List.forall₂_reverse_iff.mpr (akin.accessesInward .none)

/-- Validators that are akin are required in both trees or in none. -/
theorem Expr.Akin.isRequired (akin : e.Akin k e') : e.isRequired = e'.isRequired :=
  any_eq_of_forall₂ akin.accesses fun access access' same => by
    simp only [Access.name?, same.keys.accessed?]

end Syntax

/-- Accesses that are akin decide akin. -/
theorem Access.Akin.verdict? {access access' : Access} (akin : access.Akin k access') :
    Option.Rel (Verdict.Akin k) access.verdict? access'.verdict? := by
  -- The names are the same, and the arguments are there in both accesses or in none.
  unfold Access.verdict?
  simp only [Access.name?, akin.keys.accessed?]
  cases access'.key.accessed? with
  | none => exact .none
  | some name =>
    simp only [Option.bind_some]
    have arguments := akin.arguments
    generalize access.arguments = given, access'.arguments = given' at arguments
    cases SimpleKind.ofName? name with
    | some kind => exact .some (.simple kind)
    | none =>
      cases CallKind.ofName? name with
      | none => exact .none
      | some kind =>
        cases arguments with
        | none => exact .none
        | some akin => exact .some (.call kind akin)

namespace Syntax

variable {e e' : Expr}

/-- Roots of the same form decide akin. -/
theorem Expr.SameRule.rootVerdict? (same : e.SameRule k e') :
    Option.Rel (Verdict.Akin k) e.rootVerdict? e'.rootVerdict? := by
  -- A root decides when it is a name or a call of one, which is the same name.
  cases same with
  | name text =>
    simp only [Expr.rootVerdict?]
    cases SimpleKind.ofName? text with
    | none => exact .none
    | some kind => exact .some (.simple kind)
  | @call _ _ callee callee' _ _ _ callees akin =>
    obtain ⟨same⟩ := callees
    simp only [Expr.rootVerdict?]
    generalize callee.unwrap = f, callee'.unwrap = f' at same
    cases same with
    | name text =>
      simp only
      cases CallKind.ofName? text with
      | none => exact .none
      | some kind => exact .some (.call kind akin)
    | _ => exact .none
  | _ => exact .none

/-- Validators that are akin are decided akin. -/
theorem Expr.Akin.verdict? (akin : e.Akin k e') :
    Option.Rel (Verdict.Akin k) e.verdict? e'.verdict? :=
  rel_or (rel_findSome? akin.accesses fun _ _ same => same.verdict?) akin.chainRoot.rootVerdict?

/-- The values of elements that are akin are akin. -/
theorem ElementsAkin.elementValues? {elements elements' : List Element} :
    ElementsAkin k elements elements' →
      Option.Rel (List.Forall₂ (Expr.Akin k)) (elementValues? elements) (elementValues? elements')
  | .nil => .some .nil
  | .cons .hole others => others.elementValues?
  | .cons (.item akin) others => rel_map others.elementValues? fun _ _ rest => .cons akin rest
  | .cons (.spread _) _ => .none

mutual

/-- Expressions that are akin have as many parts. -/
theorem Expr.Akin.length_parts {e e' : Expr} : e.Akin k e' → e.parts.length = e'.parts.length
  | .inside same => by
    rw [← e.parts_unwrap, ← e'.parts_unwrap]
    exact same.length_parts

theorem Expr.SameRule.length_parts {e e' : Expr} :
    e.SameRule k e' → e.parts.length = e'.parts.length
  | .array akin => by simp [Expr.parts, akin.length_parts]
  | .object _ akin => by simp [Expr.parts, akin.length_parts]
  | .member objects _ => by simp [Expr.parts, objects.length_parts]
  | .call _ callees akin => by simp [Expr.parts, callees.length_parts, akin.length_parts]
  | .name _ | .string _ | .number _ | .constant | .template _ _ | .keywordCall _ | .assign _ _ _
  | .function _ _ | .arrow _ _ | .class _ _ | .markup | .operation _ => rfl

theorem ElementsAkin.length_parts {elements elements' : List Element} :
    ElementsAkin k elements elements' →
      (partsOfElements elements).length = (partsOfElements elements').length
  | .nil => rfl
  | .cons .hole others => by simp [partsOfElements, others.length_parts]
  | .cons (.item akin) others | .cons (.spread akin) others => by
    simp [partsOfElements, akin.length_parts, others.length_parts]

theorem PropertiesAkin.length_parts {properties properties' : List Property} :
    PropertiesAkin k properties properties' →
      (partsOfProperties properties).length = (partsOfProperties properties').length
  | .nil => rfl
  | .cons (.pair _ _ akin) others | .cons (.spread akin) others => by
    simp [partsOfProperties, akin.length_parts, others.length_parts]
  | .cons (.shorthand _ _) others => by simp [partsOfProperties, others.length_parts]
  | .cons (.method _ _) others | .cons (.getter _ _) others | .cons (.setter _ _ _) others
  | .cons (.defaulted _ _) others => by simp [partsOfProperties, others.length_parts]

end

/-- Members of classes that are akin have as many parts. -/
theorem ClassMember.Akin.length_parts {member member' : ClassMember}
    (akin : member.Akin k member') : member.parts.length = member'.parts.length := by
  -- Only static members have parts, and these are the parts of their values.
  cases akin with
  | field isStatic _ akin =>
    cases isStatic with
    | false => rfl
    | true =>
      cases akin with
      | none => rfl
      | some akin => exact akin.length_parts
  | @getter isStatic _ _ body body' _ bodies =>
    cases isStatic with
    | false => rfl
    | true =>
      have returned := bodies.returned?
      simp only [ClassMember.parts]
      generalize returned? body = e, returned? body' = e' at returned
      cases returned with
      | none => rfl
      | some akin => exact akin.length_parts
  | _ => rfl

/-- Classes that are akin have as many parts. -/
theorem Class.Akin.length_parts {definition definition' : Class}
    (akin : definition.Akin k definition') :
    definition.parts.length = definition'.parts.length := by
  -- Member by member, there are as many parts.
  cases akin with
  | mk _ akin =>
    rw [Class.parts, Class.parts, List.length_flatMap, List.length_flatMap]
    exact congrArg _ (map_eq_of_forall₂ akin.forall₂ fun _ _ akin => akin.length_parts)

end Syntax

/-- Names that stand for what is akin lead to as many parts. -/
theorem Binding.Akin.length_parts {binding binding' : Binding} (akin : binding.Akin k binding') :
    binding.parts.length = binding'.parts.length := by
  -- A name has the parts of the expression or the class behind it.
  cases akin with
  | ofValue akin => exact akin.length_parts
  | property akin _ => exact akin.length_parts
  | «class» akin => exact akin.length_parts
  | _ => rfl

/-- Scopes that are akin have as many parts. -/
theorem Scope.Akin.length_parts {scope scope' : Scope} (akin : scope.Akin k scope') :
    scope.parts.length = scope'.parts.length := by
  -- Binding by binding and assignment by assignment, there are as many parts.
  have bindings := map_eq_of_forall₂ akin.bindings fun _ _ same => same.2.length_parts
  have assignments := map_eq_of_forall₂ akin.assignments fun _ _ same => same.2.length_parts
  simp only [Scope.parts, List.length_append, List.length_flatMap, bindings, assignments]

end PropCatalog
