import PropCatalog.OrderedMap
import PropCatalog.Validator.PropType

/-! What is documented about a component. -/

namespace PropCatalog

/-- What is known about a prop. Whether it is required means something only beside a type. -/
structure PropEntry where
  type : Option PropType
  required : Bool
  description : Option String

namespace PropEntry

/-- A prop of which only the name is known. -/
def empty : PropEntry := ⟨none, false, none⟩

instance : Inhabited PropEntry := ⟨empty⟩

end PropEntry

/-- The documentation of a component, with its props in the order in which they were first named. -/
structure Record where
  displayName : Option String
  description : Option String
  props : OrderedMap PropEntry

namespace Record

def empty : Record := ⟨none, none, .empty⟩

instance : Inhabited Record := ⟨empty⟩

/-- The name that a report shows for the component. -/
def title (record : Record) : String :=
  record.displayName.getD "<anonymous>"

/-- Changes what is known about a prop, from nothing if its name is new. -/
def updateProp (record : Record) (name : String) (change : PropEntry → PropEntry) : Record :=
  { record with props := record.props.update name .empty change }

/-- Writes the type of a prop and whether it is required, and keeps its description. -/
def setType (record : Record) (name : String) (type : PropType) (required : Bool) : Record :=
  record.updateProp name fun entry => { entry with type := some type, required }

/-- Writes the description of a prop, and keeps its type. -/
def setDescription (record : Record) (name description : String) : Record :=
  record.updateProp name fun entry => { entry with description := some description }

end Record

end PropCatalog
