/-! The arguments of the command line, and what they ask for. -/

namespace PropCatalog.Command

/-- Why arguments ask for no command. -/
inductive Usage where
  | unknownArgument
  | invalidSubcommand
  | invalidValue
  | argumentConflict
  | tooManyValues
  | displayHelp
  | displayVersion
  deriving DecidableEq, Repr

inductive Format where
  | text
  | json
  deriving DecidableEq, Repr

/-- The options of a documentation run, as far as they have been given. -/
structure Options where
  sourceRoot : Option String
  validatorModules : List String
  verbose : Bool
  format : Option Format
  deriving DecidableEq, Repr

/-- No options at all. -/
def Options.empty : Options := ⟨none, [], false, none⟩

/-- What arguments ask for. -/
inductive Request where
  | overview
  | document (options : Options)
  | init
  deriving DecidableEq, Repr

/-- The options that take a value. -/
inductive ValueOption where
  | sourceRoot
  | validatorModule
  | format
  deriving DecidableEq, Repr

/-- The option of a long name. -/
def ValueOption.ofName? : String → Option ValueOption
  | "source-root" => some .sourceRoot
  | "validator-module" => some .validatorModule
  | "format" => some .format
  | _ => none

/-- An option whose value has not been looked at. -/
structure Pending where
  option : ValueOption
  value : Option String
  deriving DecidableEq, Repr

def Format.ofName? : String → Option Format
  | "text" => some .text
  | "json" => some .json
  | _ => none

/-- Gives an option its value. Only modules can be given more than once, and only their names can be
empty. -/
def Options.give (options : Options) : ValueOption → String → Except Usage Options
  | .sourceRoot, value =>
    if options.sourceRoot.isSome then .error .argumentConflict
    else if value.isEmpty then .error .invalidValue
    else .ok { options with sourceRoot := some value }
  | .validatorModule, value =>
    .ok { options with validatorModules := options.validatorModules ++ [value] }
  | .format, value =>
    if options.format.isSome then .error .argumentConflict
    else
      match Format.ofName? value with
      | some format => .ok { options with format := some format }
      | none => .error .invalidValue

/-- Looks at the value of a pending option. -/
def Options.settle (options : Options) : Option Pending → Except Usage Options
  | none => .ok options
  | some ⟨_, none⟩ => .error .invalidValue
  | some ⟨option, some value⟩ => options.give option value

/-- Turns on what a flag stands for. -/
def Options.setVerbose (options : Options) : Except Usage Options :=
  if options.verbose then .error .argumentConflict else .ok { options with verbose := true }

/-- An argument by its dashes. -/
inductive Word where
  /-- Two dashes alone. -/
  | separator
  /-- A name after two dashes, and a value after an equals sign. -/
  | long (name : String) (value : Option String)
  /-- Letters after one dash. -/
  | short (letters : List Char)
  | plain (text : String)
  deriving DecidableEq, Repr

def Word.ofText (text : String) : Word :=
  match text.toList with
  | ['-', '-'] => .separator
  | '-' :: '-' :: rest =>
    let name := String.ofList (rest.takeWhile (· != '='))
    match rest.dropWhile (· != '=') with
    | _ :: value => .long name (some (String.ofList value))
    | [] => .long name none
  | ['-'] => .plain text
  | '-' :: letters => .short letters
  | _ => .plain text

/-- Reads the letters after one dash. The value of a pending option is looked at before a letter
that is known. -/
def readLetters (options : Options) (pending : Option Pending) :
    List Char → Except Usage Options
  | [] => options.settle pending
  | 'v' :: rest => do
    let options ← options.settle pending
    let options ← options.setVerbose
    readLetters options none rest
  | 'h' :: _ => do
    let _ ← options.settle pending
    .error .displayHelp
  | _ => .error .unknownArgument

/-- Reads a long name; the result says which option waits for its value. -/
def readLong (options : Options) (pending : Option Pending) (name : String)
    (value : Option String) : Except Usage (Options × Option Pending) :=
  match ValueOption.ofName? name, value with
  | some option, none => do
    let options ← options.settle pending
    .ok (options, some ⟨option, none⟩)
  | some option, some value => do
    let options ← options.settle pending
    let options ← options.give option value
    .ok (options, none)
  | none, value =>
    if name == "verbose" || name == "help" then
      if value.isSome then .error .tooManyValues
      else do
        let options ← options.settle pending
        if name == "help" then .error .displayHelp
        let options ← options.setVerbose
        .ok (options, none)
    else .error .unknownArgument

/-- Reads the arguments of a documentation run. -/
def readOptions (options : Options) (pending : Option Pending) :
    List String → Except Usage Options
  | [] => options.settle pending
  | argument :: rest =>
    match Word.ofText argument with
    | .separator => if rest.isEmpty then options.settle pending else .error .unknownArgument
    | .long name value => do
      let (options, pending) ← readLong options pending name value
      readOptions options pending rest
    | .short letters => do
      let options ← readLetters options pending letters
      readOptions options none rest
    | .plain text =>
      match pending with
      | some ⟨option, none⟩ => readOptions options (some ⟨option, some text⟩) rest
      | _ => .error .unknownArgument

/-- The options of a documentation run. The environment can name the directory where the arguments
do not. -/
def documentOptions (environment : Option String) (arguments : List String) :
    Except Usage Options := do
  let options ← readOptions .empty none arguments
  match options.sourceRoot, environment with
  | none, some value => options.give .sourceRoot value
  | _, _ => .ok options

/-- The first argument after `init`, which takes none but a call for help. -/
def initRequest : List String → Except Usage Request
  | [] => .ok .init
  | argument :: rest =>
    match Word.ofText argument with
    | .separator => if rest.isEmpty then .ok .init else .error .unknownArgument
    | .long "help" none | .short ('h' :: _) => .error .displayHelp
    | .long "help" (some _) => .error .tooManyValues
    | _ => .error .unknownArgument

/-- What a call for help is about: at most one command. -/
def helpUsage : List String → Usage
  | [] | ["parse"] | ["init"] | ["help"] => .displayHelp
  | _ => .invalidSubcommand

/-- What arguments ask for. -/
def Request.ofArguments (environment : Option String) :
    List String → Except Usage Request
  | [] => .ok .overview
  | "parse" :: rest => (documentOptions environment rest).map .document
  | "init" :: rest => initRequest rest
  | "help" :: rest => .error (helpUsage rest)
  | argument :: rest =>
    match Word.ofText argument with
    | .separator =>
      match rest with
      | [] => .ok .overview
      | "parse" :: _ | "init" :: _ | "help" :: _ => .error .unknownArgument
      | _ => .error .invalidSubcommand
    | .long "help" none | .short ('h' :: _) => .error .displayHelp
    | .long "version" none | .short ('V' :: _) => .error .displayVersion
    | .long "help" (some _) | .long "version" (some _) => .error .tooManyValues
    | .long _ _ | .short _ => .error .unknownArgument
    | .plain _ => .error .invalidSubcommand

end PropCatalog.Command
