/-! The validators that are known by name, and the modules that export them. -/

namespace PropCatalog

/-- The validators without arguments. -/
inductive SimpleKind where
  | array
  | bool
  | func
  | number
  | object
  | string
  | any
  | element
  | node
  | symbol
  deriving DecidableEq, Repr

namespace SimpleKind

def all : List SimpleKind :=
  [array, bool, func, number, object, string, any, element, node, symbol]

def name : SimpleKind → String
  | array => "array"
  | bool => "bool"
  | func => "func"
  | number => "number"
  | object => "object"
  | string => "string"
  | any => "any"
  | element => "element"
  | node => "node"
  | symbol => "symbol"

def ofName? (text : String) : Option SimpleKind :=
  all.find? fun kind => kind.name == text

/-- A kind is found by its own name. -/
theorem ofName?_name (kind : SimpleKind) : ofName? kind.name = some kind := by
  cases kind <;> decide

/-- A name finds only the kind that bears it. -/
theorem name_of_ofName? {text : String} {kind : SimpleKind} (found : ofName? text = some kind) :
    kind.name = text := by
  -- The search returns a kind that passes its test.
  simpa using List.find?_some found

/-- A text finds a kind exactly when it is its name. -/
theorem ofName?_eq_some_iff {text : String} {kind : SimpleKind} :
    ofName? text = some kind ↔ text = kind.name :=
  ⟨fun found => (name_of_ofName? found).symm, fun same => same ▸ ofName?_name kind⟩

end SimpleKind

/-- The validators that take an argument. -/
inductive CallKind where
  | oneOf
  | oneOfType
  | instanceOf
  | arrayOf
  | objectOf
  | shape
  deriving DecidableEq, Repr

namespace CallKind

def all : List CallKind :=
  [oneOf, oneOfType, instanceOf, arrayOf, objectOf, shape]

def name : CallKind → String
  | oneOf => "oneOf"
  | oneOfType => "oneOfType"
  | instanceOf => "instanceOf"
  | arrayOf => "arrayOf"
  | objectOf => "objectOf"
  | shape => "shape"

def ofName? (text : String) : Option CallKind :=
  all.find? fun kind => kind.name == text

/-- A kind is found by its own name. -/
theorem ofName?_name (kind : CallKind) : ofName? kind.name = some kind := by
  cases kind <;> decide

/-- A name finds only the kind that bears it. -/
theorem name_of_ofName? {text : String} {kind : CallKind} (found : ofName? text = some kind) :
    kind.name = text := by
  -- The search returns a kind that passes its test.
  simpa using List.find?_some found

/-- A text finds a kind exactly when it is its name. -/
theorem ofName?_eq_some_iff {text : String} {kind : CallKind} :
    ofName? text = some kind ↔ text = kind.name :=
  ⟨fun found => (name_of_ofName? found).symm, fun same => same ▸ ofName?_name kind⟩

/-- The name of a validator with arguments is not that of one without. -/
theorem ofSimpleName?_name (kind : CallKind) : SimpleKind.ofName? kind.name = none := by
  cases kind <;> decide

end CallKind

/-- The modules that export React. -/
def reactModules : List String :=
  ["react", "react/addons", "react-native"]

/-- The module that exports only the function for components without classes. -/
def createClassModule : String := "create-react-class"

/-- The modules whose exports are validators in every project. -/
def standardValidatorModules : List String :=
  reactModules ++ ["prop-types", "ReactPropTypes"]

/-- Whether the exports of a module are validators in a project that names further modules. -/
def isValidatorModule (further : List String) (origin : String) : Bool :=
  standardValidatorModules.contains origin || further.contains origin

end PropCatalog
