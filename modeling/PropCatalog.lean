import PropCatalog.Command.Run
import PropCatalog.Proofs.Command.Uniqueness
import PropCatalog.Proofs.Component.Exporting
import PropCatalog.Proofs.Component.Naming
import PropCatalog.Proofs.Kinship.Spelling
import PropCatalog.Proofs.Record.Recognition
import PropCatalog.Proofs.Record.Reordering
import PropCatalog.Proofs.Record.Requiredness
import PropCatalog.Proofs.Report.Lines
import PropCatalog.Proofs.Scope.Aliases
import PropCatalog.Proofs.Scope.Searching
import PropCatalog.Proofs.Validator.Shape
import PropCatalog.Proofs.Wrapping.Reflexivity
import PropCatalog.Proofs.Wrapping.Transparency
import PropCatalog.Syntax.Statements
import PropCatalog.Proofs.Validator.Bare
import PropCatalog.Proofs.Validator.Declining
import PropCatalog.Proofs.Record.Frame
import PropCatalog.Proofs.Scope.Origin
import PropCatalog.Proofs.Component.Rendering
import PropCatalog.Proofs.Component.Wrappers
import PropCatalog.Proofs.Scan.Finding
import PropCatalog.Proofs.Scan.Tests
import PropCatalog.Proofs.Text.Dedenting
import PropCatalog.Proofs.Text.Description
import PropCatalog.Proofs.Scope.Head
import PropCatalog.Proofs.Settings.Nearest
