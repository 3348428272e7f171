import PropCatalog.OrderedMap
import PropCatalog.Scope.Value

/-! The entries of an object literal, with those of the literals spread in it. -/

namespace PropCatalog

open Syntax

/-- The entries of the literals that have been expanded so far. -/
abbrev Expansions (α : Type) := List (ObjectLiteral × OrderedMap α)

/-- The entries of a property or spread, added to those before it, given how the literal that a
spread leads to is expanded. -/
def Scope.addEntries {α : Type} (scope : Scope) (pick? : Property → Option (String × α))
    (expand : ObjectLiteral → Expansions α → OrderedMap α × Expansions α) :
    OrderedMap α × Expansions α → Property → OrderedMap α × Expansions α
  | (entries, expansions), .spread value =>
    match scope.object? value with
    | some literal =>
      let (inner, expansions) := expand literal expansions
      (entries.insertAll inner, expansions)
    | none => (entries, expansions)
  | (entries, expansions), property =>
    match pick? property with
    | some (name, value) => (entries.insert name value, expansions)
    | none => (entries, expansions)

/-- The entries of a literal that stands inside the literals at `path`, when a limited number of
levels is left. A literal on its own path has none, and neither has one below the last level. -/
def Scope.expandWithin {α : Type} (scope : Scope) (pick? : Property → Option (String × α)) :
    Nat → List ObjectLiteral → ObjectLiteral → Expansions α → OrderedMap α × Expansions α
  | 0, _, literal, expansions =>
    ((expansions.lookup literal).getD .empty, expansions)
  | levels + 1, path, literal, expansions =>
    match expansions.lookup literal with
    | some entries => (entries, expansions)
    | none =>
      if path.contains literal then (.empty, expansions)
      else
        let expand := scope.expandWithin pick? levels (literal :: path)
        let (entries, expansions) :=
          literal.properties.foldl (scope.addEntries pick? expand) (.empty, expansions)
        (entries, (literal, entries) :: expansions)

/-- The entries that the properties of a literal give, in source order and with spread literals
expanded in place. A later entry of a name replaces the value of an earlier one and keeps its
place; every literal is expanded once. -/
def Scope.expand {α : Type} (scope : Scope) (pick? : Property → Option (String × α))
    (literal : ObjectLiteral) : OrderedMap α :=
  (scope.expandWithin pick? depthLimit [] literal []).1

/-- The literals that are gone through for the entries of a literal, itself and some that are
spread. -/
def Scope.expanded {α : Type} (scope : Scope) (pick? : Property → Option (String × α))
    (literal : ObjectLiteral) : List ObjectLiteral :=
  (scope.expandWithin pick? depthLimit [] literal []).2.map Prod.fst

end PropCatalog
