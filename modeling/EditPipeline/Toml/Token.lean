import EditPipeline.Text.Digit
import EditPipeline.Text.Span

/-!
# TOML tokens

`scan?` cuts a text into tokens, each with its place.  A string is one token with
its value; whatever is neither a string nor a mark of punctuation nor space is an
atom, of which the grammar later makes a bare key or a part of a scalar.
-/

namespace EditPipeline.Toml

/-- A token. -/
inductive Token where
  | openBracket
  | closeBracket
  | openBrace
  | closeBrace
  | dot
  | comma
  | equals
  | newline
  /-- Spaces and tabs. -/
  | space (text : List Char)
  | comment
  /-- A string on one line, or over several ones. -/
  | string (value : List Char) (multiline : Bool)
  | atom (text : List Char)
deriving DecidableEq, Repr

/-- A token with its place. -/
structure Lexed where
  token : Token
  span : Span
deriving DecidableEq, Repr

/-! ## Characters -/

/-- The characters that may stand in a comment or a string on one line. -/
def isPlain (c : Char) : Bool := c = '\t' || (0x20 ≤ c.toNat && c.toNat ≠ 0x7f)

/-- Spaces and tabs. -/
def isSpace (c : Char) : Bool := c = ' ' || c = '\t'

/-- The characters that end an atom. -/
def endsAtom (c : Char) : Bool := "[]\x7b\x7d.,=#\"' \t\n\r".toList.contains c

/-! ## Escapes -/

/-- The character whose code point is written in hexadecimal digits. -/
def codePoint? (digits : List Char) : Option Char := do
  let n ← digits.foldlM (fun n c => return 16 * n + (← Text.digitOf? 16 c)) 0
  if n.isValidChar then some (Char.ofNat n) else none

/-- The character of an escape of one letter. -/
def shortEscape? (c : Char) : Option Char :=
  if c = 'b' then some '\x08'
  else if c = 't' then some '\t'
  else if c = 'n' then some '\n'
  else if c = 'f' then some '\x0c'
  else if c = 'r' then some '\r'
  else if c = 'e' then some '\x1b'
  else if c = '"' then some '"'
  else if c = '\\' then some '\\'
  else none

/-! ## Strings

Each reader starts after the opening quotes and gives the value with what follows
the closing quotes. -/

/-- A value with one more character in front. -/
def push (c : Char) (found : Option (List Char × List Char)) : Option (List Char × List Char) :=
  found.map fun (value, rest) => (c :: value, rest)

/-- A value with a character in front that may be missing. -/
def push? (c : Option Char) (found : Option (List Char × List Char)) :
    Option (List Char × List Char) := do
  push (← c) found

/-- A string between double quotes. -/
def basic? : List Char → Option (List Char × List Char)
  | [] => none
  | '"' :: rest => some ([], rest)
  | '\\' :: 'x' :: a :: b :: rest => push? (codePoint? [a, b]) (basic? rest)
  | '\\' :: 'u' :: a :: b :: c :: d :: rest => push? (codePoint? [a, b, c, d]) (basic? rest)
  | '\\' :: 'U' :: a :: b :: c :: d :: e :: f :: g :: h :: rest =>
      push? (codePoint? [a, b, c, d, e, f, g, h]) (basic? rest)
  | '\\' :: c :: rest => push? (shortEscape? c) (basic? rest)
  | c :: rest => if isPlain c then push c (basic? rest) else none

/-- A string between single quotes. -/
def literal? : List Char → Option (List Char × List Char)
  | [] => none
  | '\'' :: rest => some ([], rest)
  | c :: rest => if isPlain c then push c (literal? rest) else none

/-- Where a reader of a string over several lines stands. -/
inductive Margin where
  /-- Inside a line. -/
  | inside
  /-- After a backslash that must be followed by a line break, spaces aside. -/
  | broken
  /-- After such a line break; space does not count until something else comes. -/
  | skipping
deriving DecidableEq, Repr

/-- A string between triple double quotes.  Up to two more quotes may stand
before the closing ones. -/
def multilineBasic? : Margin → List Char → Option (List Char × List Char)
  | _, [] => none
  | .broken, '\n' :: rest => multilineBasic? .skipping rest
  | .broken, '\r' :: '\n' :: rest => multilineBasic? .skipping rest
  | .broken, c :: rest => if isSpace c then multilineBasic? .broken rest else none
  | .skipping, ' ' :: rest => multilineBasic? .skipping rest
  | .skipping, '\t' :: rest => multilineBasic? .skipping rest
  | .skipping, '\n' :: rest => multilineBasic? .skipping rest
  | .skipping, '\r' :: '\n' :: rest => multilineBasic? .skipping rest
  | _, '"' :: '"' :: '"' :: '"' :: '"' :: rest => some (['"', '"'], rest)
  | _, '"' :: '"' :: '"' :: '"' :: rest => some (['"'], rest)
  | _, '"' :: '"' :: '"' :: rest => some ([], rest)
  | _, '\\' :: ' ' :: rest => multilineBasic? .broken rest
  | _, '\\' :: '\t' :: rest => multilineBasic? .broken rest
  | _, '\\' :: '\n' :: rest => multilineBasic? .skipping rest
  | _, '\\' :: '\r' :: '\n' :: rest => multilineBasic? .skipping rest
  | _, '\\' :: 'x' :: a :: b :: rest =>
      push? (codePoint? [a, b]) (multilineBasic? .inside rest)
  | _, '\\' :: 'u' :: a :: b :: c :: d :: rest =>
      push? (codePoint? [a, b, c, d]) (multilineBasic? .inside rest)
  | _, '\\' :: 'U' :: a :: b :: c :: d :: e :: f :: g :: h :: rest =>
      push? (codePoint? [a, b, c, d, e, f, g, h]) (multilineBasic? .inside rest)
  | _, '\\' :: c :: rest => push? (shortEscape? c) (multilineBasic? .inside rest)
  | _, '\r' :: '\n' :: rest => push '\r' (push '\n' (multilineBasic? .inside rest))
  | _, c :: rest =>
      if isPlain c ∨ c = '\n' then push c (multilineBasic? .inside rest) else none

/-- A string between triple single quotes.  Up to two more quotes may stand before
the closing ones. -/
def multilineLiteral? : List Char → Option (List Char × List Char)
  | [] => none
  | '\'' :: '\'' :: '\'' :: '\'' :: '\'' :: rest => some (['\'', '\''], rest)
  | '\'' :: '\'' :: '\'' :: '\'' :: rest => some (['\''], rest)
  | '\'' :: '\'' :: '\'' :: rest => some ([], rest)
  | '\r' :: '\n' :: rest => push '\r' (push '\n' (multilineLiteral? rest))
  | c :: rest => if isPlain c ∨ c = '\n' then push c (multilineLiteral? rest) else none

/-- A line break right after the opening quotes does not count. -/
def skipBreak : List Char → List Char
  | '\n' :: rest => rest
  | '\r' :: '\n' :: rest => rest
  | rest => rest

/-! ## The scanner -/

/-- A string as a token, and what follows it. -/
def asString (multiline : Bool) (found : Option (List Char × List Char)) :
    Option (Token × List Char) :=
  found.map fun (value, rest) => (.string value multiline, rest)

/-- A comment ends where the line ends. -/
def comment? (text : List Char) : Option (Token × List Char) :=
  let rest := text.dropWhile isPlain
  match rest with
  | [] => some (.comment, rest)
  | '\n' :: _ => some (.comment, rest)
  | '\r' :: '\n' :: _ => some (.comment, rest)
  | _ => none

/-- The first token of a text, and what follows it. -/
def token? : List Char → Option (Token × List Char)
  | [] => none
  | '[' :: rest => some (.openBracket, rest)
  | ']' :: rest => some (.closeBracket, rest)
  | '\x7b' :: rest => some (.openBrace, rest)
  | '\x7d' :: rest => some (.closeBrace, rest)
  | '.' :: rest => some (.dot, rest)
  | ',' :: rest => some (.comma, rest)
  | '=' :: rest => some (.equals, rest)
  | '\n' :: rest => some (.newline, rest)
  | '\r' :: '\n' :: rest => some (.newline, rest)
  | '\r' :: _ => none
  | '#' :: rest => comment? rest
  | '"' :: '"' :: '"' :: rest => asString true (multilineBasic? .inside (skipBreak rest))
  | '"' :: rest => asString false (basic? rest)
  | '\'' :: '\'' :: '\'' :: rest => asString true (multilineLiteral? (skipBreak rest))
  | '\'' :: rest => asString false (literal? rest)
  | c :: rest =>
    if isSpace c then
      some (.space (c :: rest.takeWhile isSpace), rest.dropWhile isSpace)
    else
      some (.atom (c :: rest.takeWhile (!endsAtom ·)), rest.dropWhile (!endsAtom ·))

/-- The tokens of a text that begins `offset` bytes into the document, as long as
there are no more than `fuel`. -/
def scanFrom? : Nat → Nat → List Char → Option (List Lexed)
  | _, _, [] => some []
  | 0, _, _ :: _ => none
  | fuel + 1, offset, text => do
    let (token, rest) ← token? text
    let length := byteSize (text.take (text.length - rest.length))
    let more ← scanFrom? fuel (offset + length) rest
    return ⟨token, ⟨offset, length⟩⟩ :: more

/-- The tokens of a document.  A byte order mark at its front does not count. -/
def scan? (text : List Char) : Option (List Lexed) :=
  match text with
  | '\uFEFF' :: rest => scanFrom? rest.length (Char.utf8Size '\uFEFF') rest
  | text => scanFrom? text.length 0 text

end EditPipeline.Toml
