import EditPipeline.Json.Token

/-!
# The shape of a JSON text

`Document.ofTokens` arranges the tokens of a text into a tree.  It never fails:
a fault is kept at the place where it occurs, so that a decoder which walks
through the tree in the order of the text meets the first problem of the text
first, be it a fault or a value of the wrong kind.

## Strategy

The tokens are read one at a time beside a stack of the containers that are
still open.  `Expecting` says what may come next.  Where a container can neither
go on nor end, the fault becomes its ending, and the containers around it are
closed as they stand: no decoder looks past that place.
-/

namespace EditPipeline.Json

/-- A JSON text as far as its faults let it be read. -/
inductive Tree where
  /-- No value begins where one must. -/
  | absent (fault : Fault)
  /-- A word that begins like a literal and is none. -/
  | broken (fault : Fault)
  | null
  | bool (b : Bool)
  | number (n : Lexeme Number)
  | string (s : Lexeme String)
  /-- Items, and the fault in the place of the closing bracket, if any. -/
  | array (items : List Tree) (ending : Option Fault)
  /-- Members, and the fault in the place of the closing brace, if any. -/
  | object (members : List (Lexeme String × Tree)) (ending : Option Fault)
  /-- An object in which `value` stands where the first name must. -/
  | misnamed (value : Tree)

/-- A whole text. -/
structure Document where
  root : Tree
  /-- Something other than space follows the value. -/
  trailing : Bool

/-- A container that is still open; what it holds so far is listed newest
first. -/
inductive Frame where
  | array (items : List Tree)
  /-- An object whose next value belongs to `name`. -/
  | object (members : List (Lexeme String × Tree)) (name : Lexeme String)

/-- The container once `node` is its last part. -/
def Frame.close (frame : Frame) (node : Tree) (ending : Option Fault) : Tree :=
  match frame with
  | .array items => .array (items.reverse ++ [node]) ending
  | .object members name => .object (members.reverse ++ [(name, node)]) ending

/-- Closes all open containers as they stand. -/
def abandon (node : Tree) : List Frame → Document
  | [] => ⟨node, false⟩
  | frame :: stack => abandon (frame.close node none) stack

/-- What may come next. -/
inductive Expecting where
  /-- A value. -/
  | value
  /-- An item, or the end of an array that is still empty. -/
  | firstItem
  /-- A name, or the end of an object that is still empty. -/
  | firstName
  /-- A name, after a comma. -/
  | name (members : List (Lexeme String × Tree))
  /-- A colon. -/
  | colon (members : List (Lexeme String × Tree)) (name : Lexeme String)
  /-- What follows a complete value: a comma or a closing bracket, or nothing if
  no container is open. -/
  | next (node : Tree)

namespace Document

/-- What a token that begins a value makes the reader expect; an opening bracket
adds a frame only once its container holds something. -/
def begin : Token → Expecting
  | .openArray => .firstItem
  | .openObject => .firstName
  | .null => .next .null
  | .bool b => .next (.bool b)
  | .number n => .next (.number n)
  | .string s => .next (.string s)
  | .broken fault => .next (.broken fault)
  | .closeArray | .closeObject | .comma | .colon | .stray => .next (.absent .malformed)

/-- A token as a value that stands in the wrong place. -/
def misplaced : Token → Tree
  | .openArray => .array [] none
  | .openObject => .object [] none
  | .null => .null
  | .bool b => .bool b
  | .number n => .number n
  | .string s => .string s
  | .broken fault => .broken fault
  | .closeArray | .closeObject | .comma | .colon | .stray => .absent .malformed

/-- Arranges tokens, given what is expected and which containers are open. -/
def arrange : Expecting → List Frame → List Token → Document
  | .value, stack, [] => abandon (.absent .truncated) stack
  | .value, stack, token :: rest => arrange (begin token) stack rest
  | .firstItem, stack, [] => abandon (.array [] (some .truncated)) stack
  | .firstItem, stack, .closeArray :: rest => arrange (.next (.array [] none)) stack rest
  | .firstItem, stack, token :: rest => arrange (begin token) (.array [] :: stack) rest
  | .firstName, stack, [] => abandon (.object [] (some .truncated)) stack
  | .firstName, stack, .closeObject :: rest => arrange (.next (.object [] none)) stack rest
  | .firstName, stack, .string s :: rest => arrange (.colon [] s) stack rest
  | .firstName, stack, token :: _ => abandon (.misnamed (misplaced token)) stack
  | .name members, stack, .string s :: rest => arrange (.colon members s) stack rest
  | .name members, stack, [] =>
      abandon (.object (members.reverse ++ [(.fail .truncated, .absent .truncated)]) none) stack
  | .name members, stack, _ :: _ =>
      abandon (.object (members.reverse ++ [(.fail .malformed, .absent .malformed)]) none) stack
  | .colon members s, stack, .colon :: rest =>
      arrange .value (.object members s :: stack) rest
  | .colon members s, stack, [] =>
      abandon (.object (members.reverse ++ [(s, .absent .truncated)]) none) stack
  | .colon members s, stack, _ :: _ =>
      abandon (.object (members.reverse ++ [(s, .absent .malformed)]) none) stack
  | .next node, [], rest => ⟨node, !rest.isEmpty⟩
  | .next node, .array items :: stack, .comma :: rest =>
      arrange .value (.array (node :: items) :: stack) rest
  | .next node, .array items :: stack, .closeArray :: rest =>
      arrange (.next (Frame.close (.array items) node none)) stack rest
  | .next node, .object members s :: stack, .comma :: rest =>
      arrange (.name ((s, node) :: members)) stack rest
  | .next node, .object members s :: stack, .closeObject :: rest =>
      arrange (.next (Frame.close (.object members s) node none)) stack rest
  | .next node, frame :: stack, [] => abandon (frame.close node (some .truncated)) stack
  | .next node, frame :: stack, _ :: _ => abandon (frame.close node (some .malformed)) stack

/-- The shape of a row of tokens. -/
def ofTokens (tokens : List Token) : Document := arrange .value [] tokens

/-- The shape of a text. -/
def ofText (text : String) : Document := ofTokens (scan text.toList)

end Document

namespace Tree

/-! ## Skipping a value

A reader that skips a value still finds its faults, but neither numbers that are
too large nor surrogates without their other half. -/

/-- The first of two faults, if there is any. -/
def firstFault (a b : Option Fault) : Option Fault :=
  match a with
  | some fault => some fault
  | none => b

mutual

/-- The first fault of a value that is skipped. -/
def fault? : Tree → Option Fault
  | .absent fault => some fault
  | .broken fault => some fault
  | .null => none
  | .bool _ => none
  | .number n => n.skipped
  | .string s => s.skipped
  | .array items ending => firstFault (faultItems? items) ending
  | .object members ending => firstFault (faultMembers? members) ending
  | .misnamed _ => some .malformed

/-- The first fault of items that are skipped. -/
def faultItems? : List Tree → Option Fault
  | [] => none
  | item :: rest => firstFault item.fault? (faultItems? rest)

/-- The first fault of members that are skipped. -/
def faultMembers? : List (Lexeme String × Tree) → Option Fault
  | [] => none
  | (name, value) :: rest => firstFault name.skipped (firstFault value.fault? (faultMembers? rest))

end

end Tree

end EditPipeline.Json
