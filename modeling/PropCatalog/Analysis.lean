import PropCatalog.Scope.Origin
import PropCatalog.Syntax.Source
import PropCatalog.Validator.Kind

/-! What is known about a source file while its components are documented. -/

namespace PropCatalog

open Syntax

/-- A source file with its scope, and the further modules whose exports are validators. -/
structure Analysis where
  file : SourceFile
  scope : Scope
  validatorModules : List String

namespace Analysis

def ofFile (file : SourceFile) (validatorModules : List String) : Analysis where
  file
  scope := Scope.ofModule file.module
  validatorModules

/-- The text of an expression as reports quote it. -/
def quote (analysis : Analysis) (e : Expr) : String :=
  analysis.file.quote e.span

/-- Whether an expression comes from a module whose exports are validators. -/
def isValidator (analysis : Analysis) (e : Expr) : Bool :=
  (analysis.scope.origin? e).any (isValidatorModule analysis.validatorModules)

end Analysis

end PropCatalog
