import PropCatalog.Validator.Kind

/-! The types of props, and the line of text that shows one. -/

namespace PropCatalog

/-- A member of an enumeration as it is written, and whether it is more than a literal. -/
structure EnumMember where
  text : String
  computed : Bool
  deriving DecidableEq, Repr

mutual

/-- The type of a prop. Where an argument is not known, its text stands for it. -/
inductive PropType where
  | simple (kind : SimpleKind)
  | enum (members : List EnumMember)
  | enumText (text : String)
  | union (members : List PropType)
  | unionText (text : String)
  | arrayOf (item : PropType)
  | objectOf (item : PropType)
  | instanceOf (text : String)
  | shape (fields : List ShapeField)
  | shapeText (text : String)
  /-- Anything that is no known validator, as it is written. -/
  | custom (text : String)

/-- A field of a shape. -/
inductive ShapeField where
  | mk (name : String) (type : PropType) (required : Bool) (description : Option String)

end

instance : Inhabited PropType := ⟨.custom ""⟩

namespace ShapeField

def name : ShapeField → String
  | .mk name _ _ _ => name

def type : ShapeField → PropType
  | .mk _ type _ _ => type

def required : ShapeField → Bool
  | .mk _ _ required _ => required

def description : ShapeField → Option String
  | .mk _ _ _ description => description

/-- Puts a field in place of the one of its name, or at the end. -/
def insert (field : ShapeField) : List ShapeField → List ShapeField
  | [] => [field]
  | other :: rest => if other.name = field.name then field :: rest else other :: insert field rest

end ShapeField

namespace PropType

def isCustom : PropType → Bool
  | .custom _ => true
  | _ => false

mutual

/-- A type on one line, as long as the texts in it are. -/
def display : PropType → String
  | .simple kind => kind.name
  | .enum members => "enum(" ++ "|".intercalate (members.map EnumMember.text) ++ ")"
  | .enumText text => "enum(" ++ text ++ ")"
  | .union members => "union(" ++ "|".intercalate (displayAll members) ++ ")"
  | .unionText text => "union(" ++ text ++ ")"
  | .arrayOf item => "arrayOf(" ++ item.display ++ ")"
  | .objectOf item => "objectOf(" ++ item.display ++ ")"
  | .instanceOf text => "instanceOf(" ++ text ++ ")"
  | .shape fields => "shape(\x7b" ++ ", ".intercalate (displayFields fields) ++ "\x7d)"
  | .shapeText text => "shape(" ++ text ++ ")"
  | .custom text => "custom(" ++ text ++ ")"

/-- Each of several types on its line. -/
def displayAll : List PropType → List String
  | [] => []
  | type :: rest => type.display :: displayAll rest

/-- Each field with its type; a question mark marks those that are not required. -/
def displayFields : List ShapeField → List String
  | [] => []
  | .mk name type required _ :: rest =>
    (name ++ (if required then "" else "?") ++ ": " ++ type.display) :: displayFields rest

end

end PropType

end PropCatalog
