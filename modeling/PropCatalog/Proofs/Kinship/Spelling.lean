import PropCatalog.Proofs.Wrapping.Analysis
import PropCatalog.Proofs.Wrapping.Reflexivity
import PropCatalog.Proofs.Wrapping.Transparency

/-! Names mean the same in every spelling: an access with a dot or with a string in brackets, and a
key of an object literal with or without quotes and brackets, change what is printed and nothing
that is found out. -/

namespace PropCatalog

open Syntax

/-- Every module is akin to itself, so that the rules leave no form of the grammar out. -/
theorem Syntax.Module.akin_self {file : SourceFile} (source : Module) :
    source.Akin (Matching.same file).spelling source :=
  source.alike_self.akin

namespace Analysis

variable {file other : SourceFile} {m : Matching file other}

/-- Files whose modules are akin, where names may be spelled in other ways, have the same member
assignments. Expressions that are akin come from the same modules, are required in both files or in
none, and have values that are akin. The components are akin, in the same order, and records name
the same props with the same types, printed texts aside.

Modules that are akin may differ in wrappers, too, unless these hide something. -/
theorem spelling_transparent (akin : file.module.Akin m.spelling other.module)
    (validatorModules : List String) :
    (ofFile file validatorModules).scope.assignments.map Prod.fst =
      (ofFile other validatorModules).scope.assignments.map Prod.fst ∧
    (∀ e e', e.Akin m.spelling e' →
      (ofFile file validatorModules).scope.origin? e =
        (ofFile other validatorModules).scope.origin? e' ∧
      e.isRequired = e'.isRequired ∧
      Option.Rel (Expr.Akin m.spelling) ((ofFile file validatorModules).scope.value? e)
        ((ofFile other validatorModules).scope.value? e')) ∧
    List.Forall₂ (Component.Akin m.spelling) (ofFile file validatorModules).components
      (ofFile other validatorModules).components ∧
    ∀ facets, ((ofFile file validatorModules).records facets).map Record.outline =
      ((ofFile other validatorModules).records facets).map Record.outline := by
  -- Modules that are akin have analyses that are akin, and these are asked for all of it.
  have analyses := Analysis.Akin.ofFile akin validatorModules
  refine ⟨?_, fun e e' exprs => ⟨analyses.scope.origin? exprs, exprs.isRequired, ?_⟩,
    analyses.components, analyses.records⟩
  · exact map_eq_of_forall₂ analyses.scope.assignments fun _ _ same => same.1
  · exact rel_imp (analyses.scope.value?.found e e' exprs) fun _ _ same => same.akin

namespace Respelled

/-- The literal of the module, with its key and its accesses in brackets. -/
def types : ObjectLiteral :=
  ⟨⟨77, 125⟩, [.pair 79 (.computed (.string ⟨80, 87⟩ "label"))
    (.member ⟨90, 123⟩
      (.member ⟨90, 109⟩ (.name ⟨90, 99⟩ "PropTypes") (.computed (.string ⟨100, 108⟩ "string")))
      (.computed (.string ⟨110, 122⟩ "isRequired")))]⟩

/-- The plain module with a key, a validator, a base class and an assigned member in brackets. -/
def bracketed : SourceFile where
  text := Wrapped.importText ++
    "const types = \x7b ['label']: PropTypes['string']['isRequired'] \x7d;\n" ++
    "class Button extends React['Component'] \x7b\x7d\nButton['propTypes'] = types;"
  module := ⟨Wrapped.imports ++
    [.stmt (.decl ⟨63, 126⟩ (.variables
        [.mk (.name "types") (some (.object types.span types.properties))])),
      .stmt (.decl ⟨127, 169⟩ (.class "Button"
        (.mk (some (.member ⟨148, 166⟩ (.name ⟨148, 153⟩ "React")
          (.computed (.string ⟨154, 165⟩ "Component")))) []))),
      .stmt (.expr ⟨170, 198⟩ (.assign ⟨170, 197⟩ true
        (.expr (.member ⟨170, 189⟩ (.name ⟨170, 176⟩ "Button")
          (.computed (.string ⟨177, 188⟩ "propTypes"))))
        (.name ⟨192, 197⟩ "types")))]⟩
  comments := []

/-- Each module has one literal, that corresponds to the other one. -/
def matching : Matching Wrapped.plain bracketed where
  literal literal literal' := literal = Wrapped.types ∧ literal' = types
  apart := by
    rintro _ _ _ _ ⟨rfl, rfl⟩ ⟨rfl, rfl⟩
    exact ⟨fun _ => rfl, fun _ => rfl⟩

theorem akin : Wrapped.plain.module.Akin matching.spelling bracketed.module := by
  -- Item by item, both modules have the same form.
  have access (span : Span) (text : String) :
      Key.Akin matching.spelling .access (.name text) (.computed (.string span text)) :=
    .respelled trivial rfl rfl
  have validators : PropertiesAkin matching.spelling Wrapped.types.properties types.properties := by
    refine .cons (.pair rfl (.respelled trivial rfl rfl) ?_) .nil
    exact .inside (.member (.inside (.member (.inside (.name "PropTypes")) (access _ _)))
      (access _ _))
  have base : OptionAkin matching.spelling
      (some (.member ⟨138, 153⟩ (.name ⟨138, 143⟩ "React") (.name "Component")))
      (some (.member ⟨148, 166⟩ (.name ⟨148, 153⟩ "React")
        (.computed (.string ⟨154, 165⟩ "Component")))) :=
    .some (.inside (.member (.inside (.name "React")) (access _ _)))
  refine .cons (.importDecl false (some "react") ["React"]) ?_
  refine .cons (.importDecl false (some "prop-types") ["PropTypes"]) ?_
  refine .cons (.stmt (.decl (.declared (.cons (.mk (.name "types")
    (.some (.inside (.object ⟨rfl, rfl⟩ validators)))) .nil))) trivial) ?_
  refine .cons (.stmt (.decl (.class "Button" (.mk base .nil))) trivial) ?_
  refine .cons (.stmt (.expr (.inside (.assign true ?_ (.inside (.name "types"))))) ⟨rfl, rfl⟩) .nil
  exact .expr (.inside (.member (.inside (.name "Button")) (access _ _)))

end Respelled

/-- Brackets in a key, a validator, a base class and a member that is assigned to. -/
theorem spelling_transparent_bracketed :
    Wrapped.plain.module.Akin Respelled.matching.spelling Respelled.bracketed.module ∧
    (ofFile Wrapped.plain []).scope.assignments.map Prod.fst = [("Button", "propTypes")] ∧
    Wrapped.shown Respelled.bracketed = [(some "Button", [("label", some "string", true)])] ∧
    (ofFile Wrapped.plain []).scope.assignments.map Prod.fst =
      (ofFile Respelled.bracketed []).scope.assignments.map Prod.fst ∧
    List.Forall₂ (Component.Akin Respelled.matching.spelling) (ofFile Wrapped.plain []).components
      (ofFile Respelled.bracketed []).components ∧
    ((ofFile Wrapped.plain []).records Facet.all).map Record.outline =
      ((ofFile Respelled.bracketed []).records Facet.all).map Record.outline := by
  -- All that is claimed follows from the form of both modules.
  obtain ⟨assignments, _, components, records⟩ := spelling_transparent Respelled.akin []
  exact ⟨Respelled.akin, by decide +kernel, by decide +kernel, assignments, components,
    records Facet.all⟩

end Analysis

end PropCatalog
