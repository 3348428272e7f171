import PropCatalog.Proofs.Wrapping.Analysis

/-! Wrappers are transparent to the analysis of a module, unless they hide an assignment or a called
`require`: parentheses and type annotations change what is printed and nothing that is found
out. -/

namespace PropCatalog

open Syntax

namespace Analysis

variable {file other : SourceFile} {m : Matching file other}

/-- Files whose modules are alike have the same member assignments, expressions from the same
modules, the same components in the same order, and records that name the same props with the same
types, printed texts aside.

Modules that are alike may differ in wrappers around any expressions, but for those that hide an
assignment to a member or a called `require`: these stand in both modules or in none. -/
theorem wrapping_transparent (alike : file.module.Alike m other.module)
    (validatorModules : List String) :
    (ofFile file validatorModules).scope.assignments.map Prod.fst =
      (ofFile other validatorModules).scope.assignments.map Prod.fst ∧
    (∀ e e', e.Alike m e' → (ofFile file validatorModules).scope.origin? e =
      (ofFile other validatorModules).scope.origin? e') ∧
    List.Forall₂ (Component.Alike m) (ofFile file validatorModules).components
      (ofFile other validatorModules).components ∧
    ∀ facets, ((ofFile file validatorModules).records facets).map Record.outline =
      ((ofFile other validatorModules).records facets).map Record.outline := by
  -- Alike modules make alike analyses, and all of these parts are read off an analysis.
  have analyses := Analysis.Alike.ofFile alike validatorModules
  refine ⟨?_, fun e e' => analyses.scope.origin?, analyses.components, analyses.records⟩
  exact map_eq_of_forall₂ analyses.scope.assignments fun _ _ same => same.1

namespace Wrapped

/-- The imports that all of the modules start with. -/
def imports : List Item :=
  [.importDecl ⟨0, 26⟩ false (some "react") ["React"],
    .importDecl ⟨27, 62⟩ false (some "prop-types") ["PropTypes"]]

/-- The text of the imports. -/
def importText : String :=
  "import React from 'react';\nimport PropTypes from 'prop-types';\n"

/-- The literal of a module without wrappers. -/
def types : ObjectLiteral :=
  ⟨⟨77, 115⟩, [.pair 79 (.name "label")
    (.member ⟨86, 113⟩ (.member ⟨86, 102⟩ (.name ⟨86, 95⟩ "PropTypes") (.name "string"))
      (.name "isRequired"))]⟩

/-- A module without wrappers up to the object that it assigns to. -/
def ofObject (text : String) (stop : Nat) (object : Expr) : SourceFile where
  text := importText ++ "const types = \x7b label: PropTypes.string.isRequired \x7d;\n" ++
    "class Button extends React.Component \x7b\x7d\n" ++ text ++ ".propTypes = types;"
  module := ⟨imports ++
    [.stmt (.decl ⟨63, 116⟩ (.variables
        [.mk (.name "types") (some (.object types.span types.properties))])),
      .stmt (.decl ⟨117, 156⟩ (.class "Button"
        (.mk (some (.member ⟨138, 153⟩ (.name ⟨138, 143⟩ "React") (.name "Component"))) []))),
      .stmt (.expr ⟨157, stop + 19⟩ (.assign ⟨157, stop + 18⟩ true
        (.expr (.member ⟨157, stop + 10⟩ object (.name "propTypes")))
        (.name ⟨stop + 13, stop + 18⟩ "types")))]⟩
  comments := []

/-- A module without wrappers. -/
def plain : SourceFile :=
  ofObject "Button" 163 (.name ⟨157, 163⟩ "Button")

/-- The literal of a module with wrappers. -/
def wrappedTypes : ObjectLiteral :=
  ⟨⟨77, 127⟩, [.pair 79 (.name "label")
    (.member ⟨86, 125⟩
      (.wrapped ⟨86, 114⟩ .parentheses (.wrapped ⟨87, 113⟩ .nonNull
        (.member ⟨87, 112⟩
          (.wrapped ⟨87, 105⟩ .parentheses
            (.wrapped ⟨88, 104⟩ .asType (.name ⟨88, 97⟩ "PropTypes")))
          (.name "string"))))
      (.name "isRequired"))]⟩

/-- A module with wrappers around a validator, a base class and what is assigned. -/
def wrapped : SourceFile where
  text := importText ++
    "const types = \x7b label: ((PropTypes as any).string!).isRequired \x7d;\n" ++
    "class Button extends (React.Component) \x7b\x7d\nButton.propTypes = (types as any);"
  module := ⟨imports ++
    [.stmt (.decl ⟨63, 128⟩ (.variables
        [.mk (.name "types") (some (.object wrappedTypes.span wrappedTypes.properties))])),
      .stmt (.decl ⟨129, 170⟩ (.class "Button"
        (.mk (some (.wrapped ⟨150, 167⟩ .parentheses
          (.member ⟨151, 166⟩ (.name ⟨151, 156⟩ "React") (.name "Component")))) []))),
      .stmt (.expr ⟨171, 205⟩ (.assign ⟨171, 204⟩ true
        (.expr (.member ⟨171, 187⟩ (.name ⟨171, 177⟩ "Button") (.name "propTypes")))
        (.wrapped ⟨190, 204⟩ .parentheses
          (.wrapped ⟨191, 203⟩ .asType (.name ⟨191, 196⟩ "types")))))]⟩
  comments := []

/-- The module without wrappers, but for the one around the object that it assigns to. -/
def cast : SourceFile :=
  ofObject "(Button as any)" 172 (.wrapped ⟨157, 172⟩ .parentheses
    (.wrapped ⟨158, 171⟩ .asType (.name ⟨158, 164⟩ "Button")))

/-- Each module has one literal, that corresponds to the other one. -/
def matching : Matching plain wrapped where
  literal literal literal' := literal = types ∧ literal' = wrappedTypes
  apart := by
    rintro _ _ _ _ ⟨rfl, rfl⟩ ⟨rfl, rfl⟩
    exact ⟨fun _ => rfl, fun _ => rfl⟩

/-- The shown name of each component with the names and types of its props, and whether they are
required. -/
def shown (file : SourceFile) : List (Option String × List (String × Option String × Bool)) :=
  ((ofFile file []).records Facet.all).map fun record =>
    (record.displayName, record.props.toList.map fun (name, entry) =>
      (name, entry.type.map PropType.display, entry.required))

theorem alike : plain.module.Alike matching wrapped.module := by
  -- Item by item, both modules have the same form.
  have validators : PropertiesAlike matching types.properties wrappedTypes.properties := by
    refine .cons (.pair rfl (.name "label") (.inside (.member ?_ (.name "isRequired")))) .nil
    refine .wrapped (.wrapped (.inside (.member ?_ (.name "string"))) _ _) _ _
    exact .wrapped (.wrapped (.inside (.name "PropTypes")) _ _) _ _
  have base : OptionAlike matching
      (some (.member ⟨138, 153⟩ (.name ⟨138, 143⟩ "React") (.name "Component")))
      (some (.wrapped ⟨150, 167⟩ .parentheses
        (.member ⟨151, 166⟩ (.name ⟨151, 156⟩ "React") (.name "Component")))) :=
    .some (.wrapped (.inside (.member (.inside (.name "React")) (.name "Component"))) _ _)
  refine .cons (.importDecl false (some "react") ["React"]) ?_
  refine .cons (.importDecl false (some "prop-types") ["PropTypes"]) ?_
  refine .cons (.stmt (.decl (.declared (.cons (.mk (.name "types")
    (.some (.inside (.object ⟨rfl, rfl⟩ validators)))) .nil))) trivial) ?_
  refine .cons (.stmt (.decl (.class "Button" (.mk base .nil))) trivial) ?_
  refine .cons (.stmt (.expr (.inside (.assign true ?_ ?_))) ⟨rfl, rfl⟩) .nil
  · exact .expr (.inside (.member (.inside (.name "Button")) (.name "propTypes")))
  · exact .wrapped (.wrapped (.inside (.name "types")) _ _) _ _

end Wrapped

/-- Wrappers around a literal, a base class and a validator. -/
theorem wrapping_transparent_everywhere :
    Wrapped.plain.module.Alike Wrapped.matching Wrapped.wrapped.module ∧
    (ofFile Wrapped.plain []).scope.assignments.map Prod.fst = [("Button", "propTypes")] ∧
    Wrapped.shown Wrapped.plain = [(some "Button", [("label", some "string", true)])] ∧
    (ofFile Wrapped.plain []).scope.assignments.map Prod.fst =
      (ofFile Wrapped.wrapped []).scope.assignments.map Prod.fst ∧
    List.Forall₂ (Component.Alike Wrapped.matching) (ofFile Wrapped.plain []).components
      (ofFile Wrapped.wrapped []).components ∧
    ((ofFile Wrapped.plain []).records Facet.all).map Record.outline =
      ((ofFile Wrapped.wrapped []).records Facet.all).map Record.outline := by
  -- What is found in the plain module is evaluated, and the theorem tells the rest.
  obtain ⟨assignments, _, components, records⟩ := wrapping_transparent Wrapped.alike []
  exact ⟨Wrapped.alike, by decide +kernel, by decide +kernel, assignments, components,
    records Facet.all⟩

/-- A type annotation around the object that is assigned to hides the assignment, and with it all of
the props. -/
theorem wrapping_transparent_castObject :
    (Expr.wrapped ⟨157, 172⟩ .parentheses
      (.wrapped ⟨158, 171⟩ .asType (.name ⟨158, 164⟩ "Button"))).unwrap =
        .name ⟨158, 164⟩ "Button" ∧
    (ofFile Wrapped.plain []).scope.assignments.map Prod.fst = [("Button", "propTypes")] ∧
    (ofFile Wrapped.cast []).scope.assignments.map Prod.fst = [] ∧
    Wrapped.shown Wrapped.plain = [(some "Button", [("label", some "string", true)])] ∧
    Wrapped.shown Wrapped.cast = [(some "Button", [])] := by
  refine ⟨rfl, ?_, ?_, ?_, ?_⟩ <;> decide +kernel

end Analysis

end PropCatalog
