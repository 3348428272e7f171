/-! Emphasis of text by terminal codes. -/

namespace PropCatalog

inductive Style where
  | bold
  | red
  | green
  | cyan
  | boldCyan
  | boldYellow
  deriving DecidableEq, Repr

namespace Style

/-- The code that a style starts with. -/
def code : Style → String
  | bold => "\x1b[1m"
  | red => "\x1b[31m"
  | green => "\x1b[32m"
  | cyan => "\x1b[36m"
  | boldCyan => "\x1b[1;36m"
  | boldYellow => "\x1b[1;33m"

/-- The code that ends every style. -/
def reset : List Char := ['\x1b', '[', '0', 'm']

/-- A text in which the style starts again after every code that ends one. -/
def restart (style : Style) : List Char → List Char
  | '\x1b' :: '[' :: '0' :: 'm' :: rest => reset ++ style.code.toList ++ restart style rest
  | c :: rest => c :: restart style rest
  | [] => []

/-- A text in a style, if there is colour. -/
def paint (style : Style) (color : Bool) (text : String) : String :=
  if color then
    style.code ++ String.ofList (restart style text.toList) ++ String.ofList reset
  else text

end Style

end PropCatalog
