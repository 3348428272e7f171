import PropCatalog.Proofs.Scope.Agreement
import PropCatalog.Record.Facet

/-! Analyses whose scopes answer all questions alike: the same components are found in an item, and
the same is found out about them. -/

namespace PropCatalog

open Syntax

namespace Analysis

/-- Two analyses agree when their scopes do, and have as many parts, in files that differ in the
tree of the module only. -/
structure Agree (analysis other : Analysis) : Prop where
  text : analysis.file.text = other.file.text
  comments : analysis.file.comments = other.file.comments
  scope : analysis.scope.Agree other.scope
  parts : analysis.scope.parts.length = other.scope.parts.length
  validatorModules : analysis.validatorModules = other.validatorModules

variable {analysis other : Analysis}

section Origins

variable (origins : analysis.scope.origin? = other.scope.origin?)
include origins

/-- Where expressions come from decides what comes from React. -/
theorem isFromReact_congr : analysis.isFromReact = other.isFromReact := by
  -- Only the origin is asked about.
  funext e
  simp only [isFromReact, origins]

/-- Where expressions come from decides which classes define components. -/
theorem isComponentClass_congr : analysis.isComponentClass = other.isComponentClass := by
  -- Only the origin of the base class is asked about.
  funext definition
  simp only [isComponentClass, isFromReact_congr origins]

/-- Where expressions come from decides what makes components from object literals. -/
theorem isCreateClass_congr : analysis.isCreateClass = other.isCreateClass := by
  -- Only origins are asked about.
  funext callee
  simp only [isCreateClass, isFromReact_congr origins, origins]

/-- Where expressions come from decides what makes components from other ones. -/
theorem wrappedComponent?_congr : analysis.wrappedComponent? = other.wrappedComponent? := by
  -- Only the origin of the callee is asked about.
  funext callee arguments
  simp only [wrappedComponent?, isFromReact_congr origins]

end Origins

namespace Agree

theorem quote (agree : analysis.Agree other) : analysis.quote = other.quote := by
  -- What is quoted is a piece of the text.
  funext e
  simp only [Analysis.quote, SourceFile.quote, SourceFile.excerpt, agree.text]

theorem descriptionAt? (agree : analysis.Agree other) :
    analysis.file.descriptionAt? = other.file.descriptionAt? := by
  -- A description is made of comments only.
  funext position
  simp only [SourceFile.descriptionAt?, SourceFile.commentsAt, agree.comments]

theorem isValidator (agree : analysis.Agree other) : analysis.isValidator = other.isValidator := by
  -- The origin is compared with the same modules.
  funext e
  simp only [Analysis.isValidator, agree.scope.origin?, agree.validatorModules]

theorem elements? (agree : analysis.Agree other) : analysis.elements? = other.elements? := by
  -- The elements are those of the value.
  funext e
  simp only [Analysis.elements?, agree.scope.value?]

theorem shapeFields (agree : analysis.Agree other) : analysis.shapeFields = other.shapeFields := by
  -- The name and the comment of a field are found in the scope and in the file.
  have field : analysis.shapeField? = other.shapeField? := by
    funext type? property
    cases property <;>
      simp only [Analysis.shapeField?, agree.scope.keyName?, agree.descriptionAt?]
  funext type? properties
  simp only [Analysis.shapeFields, field]

theorem argumentType? (agree : analysis.Agree other) :
    analysis.argumentType? = other.argumentType? := by
  -- Each kind reads elements, fields or the text of the argument.
  have member : analysis.enumMember = other.enumMember := by
    funext e
    simp only [Analysis.enumMember, agree.quote]
  funext type? kind argument
  cases kind <;> simp only [Analysis.argumentType?, agree.elements?, agree.quote, member,
    agree.scope.object?, agree.shapeFields]

theorem type? (agree : analysis.Agree other) : analysis.type? = other.type? := by
  -- The limits are the same, and so is each step.
  have call : analysis.callType? = other.callType? := by
    funext type? kind arguments
    unfold Analysis.callType?
    simp only [agree.argumentType?, agree.quote]
  have within : ∀ depth, analysis.typeWithin? depth = other.typeWithin? depth := by
    intro depth
    induction depth with
    | zero => rfl
    | succ depth ih =>
      funext e
      simp only [typeWithin?, call, ih, agree.quote]
  funext e
  simp only [Analysis.type?, nestingLimit, agree.parts, within]

theorem propType? (agree : analysis.Agree other) : analysis.propType? = other.propType? := by
  -- A validator is read, and any other value is quoted.
  funext validator
  simp only [Analysis.propType?, agree.isValidator, agree.type?, agree.quote]

theorem amendTypes (agree : analysis.Agree other) : analysis.amendTypes = other.amendTypes := by
  -- The same props are typed, and in one order.
  have typed : analysis.typedProp? = other.typedProp? := by
    funext property
    cases property <;> simp only [typedProp?, agree.scope.keyName?, agree.propType?]
  funext record literal
  simp only [Analysis.amendTypes, typed, agree.scope.expand]

theorem amendComments (agree : analysis.Agree other) :
    analysis.amendComments = other.amendComments := by
  -- The same props are described, and in one order.
  have described : analysis.describedProp? = other.describedProp? := by
    funext property
    cases property <;> simp only [describedProp?, agree.scope.keyName?, agree.descriptionAt?]
  funext record literal
  simp only [Analysis.amendComments, described, agree.scope.expand]

theorem memberValue? (agree : analysis.Agree other) :
    analysis.memberValue? = other.memberValue? := by
  -- A member is assigned, or it is a property of the object literal.
  funext component member
  simp only [Analysis.memberValue?, agree.scope.assigned?, agree.scope.property?]

/-- Analyses that agree fill in the same records. -/
theorem record (agree : analysis.Agree other) : analysis.record = other.record := by
  -- The facets are filled in one after the other, each in the same way.
  have fill : analysis.fill = other.fill := by
    funext component record facet
    cases facet <;> simp only [Analysis.fill, declaredProps?, ownName?, agree.memberValue?,
      agree.scope.object?, agree.scope.value?, agree.amendTypes, agree.amendComments,
      agree.descriptionAt?]
  funext facets component
  simp only [Analysis.record, fill]

theorem isComponentClass (agree : analysis.Agree other) :
    analysis.isComponentClass = other.isComponentClass :=
  isComponentClass_congr agree.scope.origin?

theorem kind? (agree : analysis.Agree other) : analysis.kind? = other.kind? := by
  -- Callees are told by their origins.
  have creates := isCreateClass_congr agree.scope.origin?
  have wrapped := wrappedComponent?_congr agree.scope.origin?
  have specification : analysis.specification? = other.specification? := by
    funext callee arguments
    simp only [specification?, creates, agree.scope.object?]
  have within : ∀ calls, analysis.kindWithin? calls = other.kindWithin? calls := by
    intro calls
    induction calls with
    | zero => rfl
    | succ calls ih =>
      funext e
      simp only [kindWithin?, specification, wrapped, agree.isComponentClass, ih]
  funext e
  simp only [Analysis.kind?, within]

/-- Analyses that agree find the same components in an item. -/
theorem itemComponents (agree : analysis.Agree other) :
    analysis.itemComponents = other.itemComponents := by
  -- Each form of an item asks about kinds and base classes only.
  have declarator : analysis.declaratorComponent? = other.declaratorComponent? := by
    funext position declarator
    unfold declaratorComponent?
    simp only [agree.kind?]
  have declaration : analysis.declComponents = other.declComponents := by
    funext position declaration
    unfold declComponents
    simp only [agree.isComponentClass, declarator]
  funext item
  unfold Analysis.itemComponents
  simp only [declaration, agree.kind?, agree.isComponentClass]

end Agree

end Analysis

end PropCatalog
