import PropCatalog.Proofs.Wrapping.Kinship

/-! The analysis of modules that are alike: the same names and members stand for what is alike, and
components are defined alike. Each fact is the one about modules that are akin. -/

namespace PropCatalog

open Syntax

variable {file other : SourceFile} {m : Matching file other}

/-- Two object literals correspond when they are matched and their properties are alike. -/
structure Matching.Corresponds (m : Matching file other) (literal literal' : ObjectLiteral) :
    Prop where
  matched : m.literal literal literal'
  properties : PropertiesAlike m literal.properties literal'.properties

/-- What names stand for is alike when it comes from the same module or from expressions, classes or
functions that are alike. -/
inductive Binding.Alike (m : Matching file other) : Binding → Binding → Prop
  | imported (origin : String) : Binding.Alike m (.imported origin) (.imported origin)
  | ofValue {e e' : Expr} (alike : e.Alike m e') : Binding.Alike m (.value e) (.value e')
  | property {e e' : Expr} (alike : e.Alike m e') (key : String) :
    Binding.Alike m (.property e key) (.property e' key)
  | class {definition definition' : Syntax.Class} (alike : definition.Alike m definition') :
    Binding.Alike m (.class definition) (.class definition')
  | function {body body' : List Stmt} (bodies : StmtsAlike m body body') :
    Binding.Alike m (.function body) (.function body')

/-- Two scopes are alike when they bind and assign the same names one after the other, to what is
alike. -/
structure Scope.Alike (m : Matching file other) (scope scope' : Scope) : Prop where
  bindings : List.Forall₂ (fun bound bound' => bound.1 = bound'.1 ∧ bound.2.Alike m bound'.2)
    scope.bindings scope'.bindings
  assignments : List.Forall₂ (fun given given' => given.1 = given'.1 ∧ given.2.Alike m given'.2)
    scope.assignments scope'.assignments

/-- Two definitions of components are alike when both are of one kind, with literals that correspond
or classes that are alike. -/
inductive ComponentKind.Alike {file other : SourceFile} (m : Matching file other) :
    ComponentKind → ComponentKind → Prop
  | specification {literal literal' : ObjectLiteral}
    (corresponds : m.Corresponds literal literal') :
    ComponentKind.Alike m (.specification literal) (.specification literal')
  | class {definition definition' : Syntax.Class} (alike : definition.Alike m definition') :
    ComponentKind.Alike m (.class definition) (.class definition')
  | function : ComponentKind.Alike m .function .function

/-- Two components are alike when they have the same name and are defined alike. -/
structure Component.Alike {file other : SourceFile} (m : Matching file other)
    (component component' : Component) : Prop where
  name : component.name = component'.name
  kind : component.kind.Alike m component'.kind

/-- Two analyses are alike when they are about modules that are alike, and know the same modules of
validators. -/
structure Analysis.Alike (analysis analysis' : Analysis)
    (m : Matching analysis.file analysis'.file) : Prop where
  module : analysis.file.module.Alike m analysis'.file.module
  scope : analysis.scope.Alike m analysis'.scope
  validatorModules : analysis.validatorModules = analysis'.validatorModules

namespace Syntax

/-- Items that are alike are akin. -/
theorem Item.Alike.akin {k : Kinship file other} {item item' : Item}
    (alike : item.Alike k.toMatching item') : item.Akin k item' := by
  -- The two relations have the same cases for items.
  cases alike with
  | importDecl typeOnly origin names => exact .importDecl typeOnly origin names
  | exportDecl alike => exact .exportDecl alike.akin
  | exportDefaultClass name alike => exact .exportDefaultClass name alike.akin
  | exportDefaultFunction name bodies => exact .exportDefaultFunction name bodies.akin
  | exportDefaultExpr alike => exact .exportDefaultExpr alike.akin
  | stmt alike assigns => exact .stmt alike.akin assigns
  | other => exact .other

/-- Modules that are alike are akin. -/
theorem Module.Alike.akin {k : Kinship file other} {source source' : Module}
    (alike : source.Alike k.toMatching source') : source.Akin k source' :=
  alike.imp fun _ _ alike => alike.akin

end Syntax

theorem Binding.Alike.akin {binding binding' : Binding} (alike : binding.Alike m binding') :
    binding.Akin m.wrapping binding' := by
  -- The two relations have the same cases for bindings.
  cases alike with
  | imported origin => exact .imported origin
  | ofValue alike => exact .ofValue alike.akin
  | property alike key => exact .property alike.akin key
  | «class» alike => exact .class alike.akin
  | function bodies => exact .function bodies.akin

theorem Binding.Akin.alike {binding binding' : Binding}
    (akin : binding.Akin m.wrapping binding') : binding.Alike m binding' := by
  -- The two relations have the same cases for bindings.
  cases akin with
  | imported origin => exact .imported origin
  | ofValue akin => exact .ofValue akin.alike
  | property akin key => exact .property akin.alike key
  | «class» akin => exact .class akin.alike
  | function bodies => exact .function bodies.alike

namespace Scope

variable {scope scope' : Scope}

theorem Alike.akin (alike : scope.Alike m scope') : scope.Akin m.wrapping scope' :=
  ⟨alike.bindings.imp fun _ _ same => ⟨same.1, same.2.akin⟩,
    alike.assignments.imp fun _ _ same => ⟨same.1, same.2.akin⟩⟩

theorem Akin.alike (akin : scope.Akin m.wrapping scope') : scope.Alike m scope' :=
  ⟨akin.bindings.imp fun _ _ same => ⟨same.1, same.2.alike⟩,
    akin.assignments.imp fun _ _ same => ⟨same.1, same.2.alike⟩⟩

/-- Expressions that are alike come from the same module. -/
theorem Alike.origin? (alike : scope.Alike m scope') {e e' : Expr} (exprs : e.Alike m e') :
    scope.origin? e = scope'.origin? e' :=
  alike.akin.origin? exprs.akin

end Scope

/-- Components that are akin are alike, unless they are spelled in other ways. -/
theorem Component.Akin.alike {component component' : Component}
    (akin : component.Akin m.wrapping component') : component.Alike m component' := by
  -- What a component is defined by is found again inside of its kind.
  obtain ⟨name, kinds⟩ := akin
  refine ⟨name, ?_⟩
  generalize component.kind = kind, component'.kind = kind' at kinds
  cases kinds with
  | specification corresponds =>
    exact .specification ⟨corresponds.matched, corresponds.properties.alike⟩
  | «class» akin => exact .class akin.alike
  | function => exact .function

namespace Analysis.Alike

/-- Analyses of files whose modules are alike are alike. -/
theorem ofFile (alike : file.module.Alike m other.module) (validatorModules : List String) :
    (Analysis.ofFile file validatorModules).Alike (Analysis.ofFile other validatorModules) m :=
  ⟨alike, (Scope.Akin.ofModule alike.akin).alike, rfl⟩

variable {analysis analysis' : Analysis} {m : Matching analysis.file analysis'.file}

theorem akin (alike : analysis.Alike analysis' m) : analysis.Akin analysis' m.wrapping :=
  ⟨alike.module.akin, alike.scope.akin, alike.validatorModules⟩

/-- Modules that are alike define components that are alike, in the same order. -/
theorem components (alike : analysis.Alike analysis' m) :
    List.Forall₂ (Component.Alike m) analysis.components analysis'.components :=
  alike.akin.components.imp fun _ _ akin => akin.alike

/-- The records of modules that are alike have the same outlines. -/
theorem records (alike : analysis.Alike analysis' m) (facets : List Facet) :
    (analysis.records facets).map Record.outline =
      (analysis'.records facets).map Record.outline :=
  alike.akin.records facets

end Analysis.Alike

end PropCatalog
