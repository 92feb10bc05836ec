import EditPipeline.Decimal.Shortest
import EditPipeline.Json.Value

/-!
# Writing JSON

Two layouts of one value: `Json.compact` without any space, and `Json.pretty`
with one member or item a line, two spaces deeper than its container.  Both
write members in the order in which the value lists them.

Numbers are written so that they read back: an integer by its digits, a double
by the fewest digits that round to it, with an exponent from `1e+16` up and
below `1e-5`.
-/

namespace EditPipeline.Json

/-- The text of a natural number. -/
def natChars (n : Nat) : List Char := Decimal.digitsOf n

/-- The text of an integer. -/
def intChars : Int → List Char
  | .ofNat n => natChars n
  | .negSucc n => '-' :: natChars (n + 1)

/-- A positive double by its shortest decimal: positional while the exponent of
the first digit lies between `-5` and `15`, with a signed exponent outside. -/
def magnitudeChars (x : Decimal.Scientific) : List Char :=
  let digits := Decimal.digitsOf x.digits
  let leading := x.exponent + digits.length - 1
  if -5 ≤ leading ∧ leading < 16 then
    Decimal.positional digits x.exponent
  else
    let mantissa := match digits with
      | first :: second :: rest => first :: '.' :: second :: rest
      | few => few
    mantissa ++ 'e' :: (if leading < 0 then '-' else '+') :: natChars leading.natAbs

/-- The text of a finite double.  Zero keeps its sign. -/
def floatChars (x : Float) : List Char :=
  let magnitude := Decimal.Binary.ofFloat x
  let written :=
    if magnitude.mantissa = 0 then ['0', '.', '0'] else magnitudeChars magnitude.shortest
  if x.toBits.toNat < Word.signed64 then written else '-' :: written

/-- The text of a number. -/
def Number.chars : Number → List Char
  | .integer n => intChars n
  | .float x => floatChars x

/-! ## Strings -/

/-- The hexadecimal digit of a number below sixteen. -/
def hexDigit (n : Nat) : Char := Nat.digitChar n

/-- How one character stands between quotes: the quote, the backslash and the
control characters are escaped, every other character stands for itself. -/
def escape (c : Char) : List Char :=
  if c = '"' then ['\\', '"']
  else if c = '\\' then ['\\', '\\']
  else if c = '\x08' then ['\\', 'b']
  else if c = '\x0c' then ['\\', 'f']
  else if c = '\n' then ['\\', 'n']
  else if c = '\r' then ['\\', 'r']
  else if c = '\t' then ['\\', 't']
  else if c.toNat < 0x20 then
    ['\\', 'u', '0', '0', hexDigit (c.toNat / 16), hexDigit (c.toNat % 16)]
  else [c]

/-- The text of a string, quotes included. -/
def quote (s : String) : List Char := '"' :: s.toList.flatMap escape ++ ['"']

/-! ## The two layouts -/

/-- Writes the pieces with `separator` between each two of them. -/
def separated (separator : List Char) : List (List Char) → List Char
  | [] => []
  | [piece] => piece
  | piece :: rest => piece ++ separator ++ separated separator rest

mutual

/-- A value without any space. -/
def compact : Json → List Char
  | .null => "null".toList
  | .bool true => "true".toList
  | .bool false => "false".toList
  | .number n => n.chars
  | .string s => quote s
  | .array items => '[' :: separated [','] (compactItems items) ++ [']']
  | .object members => '\x7b' :: separated [','] (compactMembers members) ++ ['\x7d']

/-- Each item without any space. -/
def compactItems : List Json → List (List Char)
  | [] => []
  | item :: rest => compact item :: compactItems rest

/-- Each member without any space. -/
def compactMembers : List (String × Json) → List (List Char)
  | [] => []
  | (name, value) :: rest => (quote name ++ ':' :: compact value) :: compactMembers rest

end

/-- A line break and the indentation of a line `level` containers deep. -/
def lineBreak (level : Nat) : List Char := '\n' :: List.replicate (2 * level) ' '

/-- A container in the indented layout; an empty one keeps its brackets
together. -/
def block (opening closing : Char) (level : Nat) (pieces : List (List Char)) : List Char :=
  if pieces.isEmpty then [opening, closing]
  else
    opening :: lineBreak (level + 1) ++ separated (',' :: lineBreak (level + 1)) pieces
      ++ lineBreak level ++ [closing]

mutual

/-- A value in the indented layout, inside `level` containers. -/
def prettyAt (level : Nat) : Json → List Char
  | .null => "null".toList
  | .bool true => "true".toList
  | .bool false => "false".toList
  | .number n => n.chars
  | .string s => quote s
  | .array items => block '[' ']' level (prettyItems (level + 1) items)
  | .object members => block '\x7b' '\x7d' level (prettyMembers (level + 1) members)

/-- Each item in the indented layout. -/
def prettyItems (level : Nat) : List Json → List (List Char)
  | [] => []
  | item :: rest => prettyAt level item :: prettyItems level rest

/-- Each member in the indented layout. -/
def prettyMembers (level : Nat) : List (String × Json) → List (List Char)
  | [] => []
  | (name, value) :: rest =>
    (quote name ++ ':' :: ' ' :: prettyAt level value) :: prettyMembers level rest

end

/-- A document in the indented layout. -/
def pretty (value : Json) : List Char := prettyAt 0 value

/-- The compact text of a value. -/
def compactText (value : Json) : String := String.ofList (compact value)

/-- The indented text of a value. -/
def prettyText (value : Json) : String := String.ofList (pretty value)

end EditPipeline.Json
