import EditPipeline.Text.Blank
import EditPipeline.Text.Span

/-!
# The line of a key

Finds the line on which a key of a table has its value, so that a message can point
at it.  Lines are looked at one by one, without regard to what the lines before mean:
a line that begins with a bracket starts a table, and a line that begins with the key
and an equals sign is the one.
-/

namespace EditPipeline.KeyLabel

/-- A line with the number of bytes before it. -/
structure Line where
  offset : Nat
  text : List Char
deriving DecidableEq, Repr

/-- A text without the characters at its end that break lines. -/
def dropBreak (text : List Char) : List Char :=
  (text.reverse.dropWhile fun c => c = '\n' || c = '\r').reverse

/-- The lines of a text, each with the character that ends it. -/
def split : List Char → List (List Char)
  | [] => []
  | c :: rest =>
    if c = '\n' then [c] :: split rest
    else
      match split rest with
      | [] => [[c]]
      | line :: more => (c :: line) :: more

/-- Lines with their places, the first of which is `offset`. -/
def placed : Nat → List (List Char) → List Line
  | _, [] => []
  | offset, line :: rest => ⟨offset, dropBreak line⟩ :: placed (offset + byteSize line) rest

/-- The lines of a text. -/
def lines (text : String) : List Line := placed 0 (split text.toList)

/-- What is left of a text after the characters in front of it. -/
def dropFront? : List Char → List Char → Option (List Char)
  | [], text => some text
  | _ :: _, [] => none
  | c :: front, d :: text => if c = d then dropFront? front text else none

/-- The name of the table that a line starts, if it starts one. -/
def Line.header? (line : Line) : Option (List Char) :=
  match Text.trimStart line.text with
  | '[' :: rest => some (Text.trim (rest.takeWhile (· ≠ ']')))
  | _ => none

/-- Whether a line begins with a key and an equals sign. -/
def Line.assigns (key : String) (line : Line) : Bool :=
  match dropFront? key.toList (Text.trimStart line.text) with
  | none => false
  | some rest => (Text.trimStart rest).head? = some '='

/-- The line without the space around it. -/
def Line.span (line : Line) : Span :=
  let trimmed := Text.trimStart line.text
  ⟨line.offset + (byteSize line.text - byteSize trimmed), byteSize (Text.trimEnd trimmed)⟩

/-- Finds the line among some lines, the first of which belongs to the table
`current`. -/
def findIn (table : List Char) (key : String) : List Char → List Line → Option Span
  | _, [] => none
  | current, line :: rest =>
    match line.header? with
    | some name => findIn table key name rest
    | none =>
      if current = table ∧ line.assigns key then some line.span
      else findIn table key current rest

/-- The place of the line on which a key of a table has its value. -/
def find? (text table key : String) : Option Span := findIn table.toList key [] (lines text)

end EditPipeline.KeyLabel
