import PropCatalog.Analysis
import PropCatalog.Scope.Parts
import PropCatalog.Validator.Chain
import PropCatalog.Validator.PropType

/-! The type that a validator expression describes. -/

namespace PropCatalog

open Syntax

/-- What decides the type of a validator: a validator without arguments, or a call of one with
arguments. -/
inductive Verdict where
  | simple (kind : SimpleKind)
  | call (kind : CallKind) (arguments : List Element)

/-- An access decides when it names a validator without arguments, or one with arguments that is
called. -/
def Access.verdict? (access : Access) : Option Verdict :=
  access.name?.bind fun name =>
    match SimpleKind.ofName? name, CallKind.ofName? name, access.arguments with
    | some kind, _, _ => some (.simple kind)
    | none, some kind, some arguments => some (.call kind arguments)
    | _, _, _ => none

/-- The root of a chain decides when it is the bare name of a validator without arguments, or a
direct call of the bare name of one with arguments. -/
def Syntax.Expr.rootVerdict? (root : Expr) : Option Verdict :=
  match root with
  | .name _ text => (SimpleKind.ofName? text).map .simple
  | .call _ callee arguments =>
    match callee.unwrap with
    | .name _ text => (CallKind.ofName? text).map fun kind => .call kind arguments
    | _ => none
  | _ => none

/-- The first access from the root on that decides, or else the root. -/
def Syntax.Expr.verdict? (e : Expr) : Option Verdict :=
  (e.accesses.findSome? Access.verdict?).or e.chainRoot.rootVerdict?

/-- Whether an access of an expression marks the prop as required. -/
def Syntax.Expr.isRequired (e : Expr) : Bool :=
  e.accesses.any fun access => access.name? == some "isRequired"

/-- The values of the elements of an array literal; holes are left out, and a spread makes them
unknown. -/
def elementValues? : List Element → Option (List Expr)
  | [] => some []
  | .hole :: rest => elementValues? rest
  | .item value :: rest => (elementValues? rest).map (value :: ·)
  | .spread _ :: _ => none

/-- The type of a call whose arguments start with a spread of some text: the text stands for the
argument, where the type can hold one. -/
def CallKind.ofSpread? : CallKind → String → Option PropType
  | .oneOf, text => some (.enumText text)
  | .oneOfType, text => some (.unionText text)
  | .instanceOf, text => some (.instanceOf text)
  | .shape, text => some (.shapeText text)
  | .arrayOf, _ | .objectOf, _ => none

namespace Analysis

/-- The elements of the array literal that stands for an expression. -/
def elements? (analysis : Analysis) (e : Expr) : Option (List Expr) :=
  match analysis.scope.value? e with
  | some (.array _ elements) => elementValues? elements
  | _ => none

/-- The member of an enumeration that an element is. -/
def enumMember (analysis : Analysis) (e : Expr) : EnumMember :=
  ⟨analysis.quote e, ! e.isLiteral⟩

/-- The field that a property of a shape describes, given how types are read. Only properties with
a value of their own describe one. -/
def shapeField? (analysis : Analysis) (type? : Expr → Option PropType) :
    Property → Option ShapeField
  | .pair start key value =>
    (analysis.scope.keyName? key).bind fun name =>
      (type? value).map fun type =>
        .mk name type (! type.isCustom && value.isRequired) (analysis.file.descriptionAt? start)
  | _ => none

/-- The fields of a shape, in the order in which their names come first; of two with one name the
later counts. -/
def shapeFields (analysis : Analysis) (type? : Expr → Option PropType)
    (properties : List Property) : List ShapeField :=
  (properties.filterMap (analysis.shapeField? type?)).foldl
    (fun fields field => field.insert fields) []

/-- The type of a call on an argument, given how types are read. -/
def argumentType? (analysis : Analysis) (type? : Expr → Option PropType) (kind : CallKind)
    (argument : Expr) : Option PropType :=
  match kind with
  | .oneOf =>
    match analysis.elements? argument with
    | some elements => some (.enum (elements.map analysis.enumMember))
    | none => some (.enumText (analysis.quote argument))
  | .oneOfType =>
    match (analysis.elements? argument).bind fun elements => elements.mapM type? with
    | some types => some (.union types)
    | none => some (.unionText (analysis.quote argument))
  | .instanceOf => some (.instanceOf (analysis.quote argument))
  | .arrayOf => (type? argument).map .arrayOf
  | .objectOf => (type? argument).map .objectOf
  | .shape =>
    match analysis.scope.object? argument with
    | some literal => some (.shape (analysis.shapeFields type? literal.properties))
    | none => some (.shapeText (analysis.quote argument))

/-- The type of a call, given how types are read: its first argument decides. -/
def callType? (analysis : Analysis) (type? : Expr → Option PropType) (kind : CallKind) :
    List Element → Option PropType
  | .item argument :: _ => analysis.argumentType? type? kind argument
  | .spread argument :: _ => kind.ofSpread? ("..." ++ analysis.quote argument)
  | _ => none

/-- The type of a validator whose arguments nest through a limited number of validators. -/
def typeWithin? (analysis : Analysis) : Nat → Expr → Option PropType
  | 0, _ => none
  | depth + 1, e =>
    match e.verdict? with
    | some (.simple kind) => some (.simple kind)
    | some (.call kind arguments) =>
      analysis.callType? (analysis.typeWithin? depth) kind arguments
    | none => some (.custom (analysis.quote e))

/-- A validator that does not contain itself nests through no more validators than this, since each
of them is another part of the expression or of the scope. -/
def nestingLimit (analysis : Analysis) (e : Expr) : Nat :=
  e.parts.length + analysis.scope.parts.length + 1

/-- The type that an expression describes as a validator: a custom one when nothing decides it, and
none when the deciding call has no argument to look at. It is the type of what is read to its end
only; see `reading?` for all others. -/
def type? (analysis : Analysis) (e : Expr) : Option PropType :=
  analysis.typeWithin? (analysis.nestingLimit e) e

/-! ## Validators that contain themselves

Nothing stops the reading of a validator that contains itself, so that it has no end. -/

/-- The validator that a property of a shape holds, where its name is known. -/
def fieldValidator? (analysis : Analysis) : Property → Option Expr
  | .pair _ key value => (analysis.scope.keyName? key).map fun _ => value
  | _ => none

/-- The validators that the type of a call on an argument hangs on. -/
def argumentValidators (analysis : Analysis) (kind : CallKind) (argument : Expr) : List Expr :=
  match kind with
  | .oneOf | .instanceOf => []
  | .oneOfType => (analysis.elements? argument).getD []
  | .arrayOf | .objectOf => [argument]
  | .shape =>
    match analysis.scope.object? argument with
    | some literal => literal.properties.filterMap analysis.fieldValidator?
    | none => []

/-- The validators of a list that are read one after the other, given how types are read. The first
one that describes no type is the last one that is read. -/
def readInTurn (type? : Expr → Option PropType) : List Expr → List Expr
  | [] => []
  | e :: rest => e :: if (type? e).isSome then readInTurn type? rest else []

/-- The validators that are read for the type of a call on an argument, given how types are read. -/
def argumentReads (analysis : Analysis) (type? : Expr → Option PropType) (kind : CallKind)
    (argument : Expr) : List Expr :=
  match kind with
  | .oneOfType => readInTurn type? (analysis.argumentValidators kind argument)
  | _ => analysis.argumentValidators kind argument

/-- The validators that are read directly inside of one, given how types are read. -/
def readInside (analysis : Analysis) (type? : Expr → Option PropType) (e : Expr) : List Expr :=
  match e.verdict? with
  | some (.call kind (.item argument :: _)) => analysis.argumentReads type? kind argument
  | _ => []

/-- Whether a validator whose arguments nest through a limited number of validators is read to its
end. -/
def finishesWithin (analysis : Analysis) : Nat → Expr → Bool
  | 0, _ => false
  | depth + 1, e =>
    (analysis.readInside (analysis.typeWithin? depth) e).all (analysis.finishesWithin depth)

/-- Whether a validator is read to its end, in however many levels. -/
def finishes (analysis : Analysis) (e : Expr) : Bool :=
  analysis.finishesWithin (analysis.nestingLimit e) e

/-- The result of reading a validator: none when there is no end to it, and otherwise the type that
it describes, if it describes one. -/
def reading? (analysis : Analysis) (e : Expr) : Option (Option PropType) :=
  if analysis.finishes e then some (analysis.type? e) else none

end Analysis

end PropCatalog
