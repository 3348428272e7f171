import PropCatalog.Json.Basic
import PropCatalog.Json.Token

/-! JSON values read from their text. -/

namespace PropCatalog.Json

/-- An object, unless one of its names is no text. -/
def ofMembers (members : List (Option (List Char) × Json)) : Json :=
  match members.mapM fun (name, value) => name.map fun name => (String.ofList name, value) with
  | some members => .object members
  | none => .illFormed

mutual

/-- The value that tokens start with, and the tokens after it, when a limited number of tokens can
be looked at. -/
def valueWithin? : Nat → List Token → Option (Json × List Token)
  | 0, _ => none
  | fuel + 1, tokens =>
    match tokens with
    | .null :: rest => some (.null, rest)
    | .bool value :: rest => some (.bool value, rest)
    | .number text :: rest => some (.number (String.ofList text), rest)
    | .string (some text) :: rest => some (.string (String.ofList text), rest)
    | .string none :: rest => some (.illFormed, rest)
    | .openBracket :: .closeBracket :: rest => some (.array [], rest)
    | .openBracket :: rest =>
      (itemsWithin? fuel rest).map fun (items, rest) => (.array items, rest)
    | .openBrace :: .closeBrace :: rest => some (.object [], rest)
    | .openBrace :: rest =>
      (membersWithin? fuel rest).map fun (members, rest) => (ofMembers members, rest)
    | _ => none

/-- The items of an array up to its closing bracket. -/
def itemsWithin? : Nat → List Token → Option (List Json × List Token)
  | 0, _ => none
  | fuel + 1, tokens =>
    (valueWithin? fuel tokens).bind fun (item, rest) =>
      match rest with
      | .closeBracket :: rest => some ([item], rest)
      | .comma :: rest =>
        (itemsWithin? fuel rest).map fun (items, rest) => (item :: items, rest)
      | _ => none

/-- The members of an object up to its closing brace. -/
def membersWithin? : Nat → List Token → Option (List (Option (List Char) × Json) × List Token)
  | 0, _ => none
  | fuel + 1, tokens =>
    match tokens with
    | .string name :: .colon :: rest =>
      (valueWithin? fuel rest).bind fun (value, rest) =>
        match rest with
        | .closeBrace :: rest => some ([(name, value)], rest)
        | .comma :: rest =>
          (membersWithin? fuel rest).map fun (members, rest) => ((name, value) :: members, rest)
        | _ => none
    | _ => none

end

/-- The value that a whole text is. -/
def read? (text : String) : Option Json :=
  (tokens? text.toList).bind fun tokens =>
    match valueWithin? (2 * tokens.length + 1) tokens with
    | some (value, []) => some value
    | _ => none

end PropCatalog.Json
