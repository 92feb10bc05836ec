import EditPipeline.Toml.Scalar
import EditPipeline.Toml.Table
import EditPipeline.Toml.Token

/-!
# TOML statements

What the lines of a document say, read from its tokens.  A statement stands on a
line of its own, but the arrays, tables and texts in it may reach over several
lines.

Each reader gives what it has read and the tokens that follow.
-/

namespace EditPipeline.Toml

/-- What a line says. -/
inductive Statement where
  /-- What follows belongs to a table. -/
  | table (path : KeyPath) (span : Span)
  /-- What follows belongs to one more table of an array. -/
  | element (path : KeyPath) (span : Span)
  /-- A key has a value. -/
  | assignment (path : KeyPath) (span : Span) (value : Value)

/-! ## Space -/

/-- Skips space within a line. -/
def skipSpace : List Lexed → List Lexed
  | ⟨.space _, _⟩ :: rest => skipSpace rest
  | rest => rest

/-- Skips space, comments and line breaks. -/
def skipLines : List Lexed → List Lexed
  | ⟨.space _, _⟩ :: rest => skipLines rest
  | ⟨.comment, _⟩ :: rest => skipLines rest
  | ⟨.newline, _⟩ :: rest => skipLines rest
  | rest => rest

/-- Splits off the token that has to stand at the front. -/
def expectToken? (token : Token) : List Lexed → Option (Span × List Lexed)
  | lexed :: rest => if lexed.token = token then some (lexed.span, rest) else none
  | [] => none

/-! ## Keys -/

/-- The characters of a key without quotes. -/
def isBare (c : Char) : Bool := c.isAlphanum || c = '_' || c = '-'

/-- A part of a key. -/
def key? : List Lexed → Option (Key × List Lexed)
  | ⟨.atom text, span⟩ :: rest =>
    if text.all isBare then some (⟨String.ofList text, span⟩, rest) else none
  | ⟨.string text false, span⟩ :: rest => some (⟨String.ofList text, span⟩, rest)
  | _ => none

/-- The parts of a key after its first one. -/
def moreKeys : Nat → KeyPath → List Lexed → Option (KeyPath × List Lexed)
  | 0, _, _ => none
  | fuel + 1, path, tokens =>
    match skipSpace tokens with
    | ⟨.dot, _⟩ :: rest => do
      let (key, rest) ← key? (skipSpace rest)
      moreKeys fuel ⟨path.keys, key⟩ rest
    | rest => some (path, rest)

/-- A key of one part, or of several ones with dots between them.  Space around the
dots and after the key does not count. -/
def keyPath? (tokens : List Lexed) : Option (KeyPath × List Lexed) := do
  let (key, rest) ← key? tokens
  moreKeys (rest.length + 1) ⟨[], key⟩ rest

/-! ## Values -/

/-- The text that stands without a break at the front of some tokens. -/
def unbroken : List Lexed → List Char × List Lexed
  | ⟨.atom text, _⟩ :: rest => (text ++ (unbroken rest).1, (unbroken rest).2)
  | ⟨.dot, _⟩ :: rest => ('.' :: (unbroken rest).1, (unbroken rest).2)
  | rest => ([], rest)

/-- The text of a scalar.  One space may stand between a date and a time. -/
def scalarText (tokens : List Lexed) : List Char × List Lexed :=
  match unbroken tokens with
  | (text, rest) =>
    match rest with
    | ⟨.space [' '], _⟩ :: ⟨.atom (c :: more), span⟩ :: after =>
      if isDate text ∧ c.isDigit then
        let (time, rest) := unbroken (⟨.atom (c :: more), span⟩ :: after)
        (text ++ ' ' :: time, rest)
      else (text, rest)
    | _ => (text, rest)

/-- A value with its place, and what follows. -/
abbrev Reading := Option ((Span × Value) × List Lexed)

mutual

/-- A value in which at most `levels` arrays and tables are open at once. -/
def value? (levels : Nat) : Nat → List Lexed → Reading
  | 0, _ => none
  | fuel + 1, tokens =>
    match tokens with
    | [] => none
    | ⟨.string text _, span⟩ :: rest => some ((span, .string (String.ofList text)), rest)
    | ⟨.openBracket, first⟩ :: rest =>
      match levels with
      | 0 => none
      | levels + 1 => items? levels first fuel [] (skipLines rest)
    | ⟨.openBrace, first⟩ :: rest =>
      match levels with
      | 0 => none
      | levels + 1 => members? levels first fuel [] (skipLines rest)
    | ⟨_, first⟩ :: _ => do
      let (text, rest) := scalarText tokens
      let value ← scalar? text
      some ((⟨first.start, byteSize text⟩, value), rest)

/-- The items of an array after those in `held`.  A comma may follow the last one. -/
def items? (levels : Nat) (first : Span) : Nat → List (Span × Value) → List Lexed → Reading
  | 0, _, _ => none
  | _ + 1, held, ⟨.closeBracket, last⟩ :: rest =>
    some ((first.through last, .array false held), rest)
  | fuel + 1, held, tokens => do
    let (item, rest) ← value? levels fuel tokens
    match skipLines rest with
    | ⟨.comma, _⟩ :: rest => items? levels first fuel (held ++ [item]) (skipLines rest)
    | rest =>
      let (last, rest) ← expectToken? .closeBracket rest
      some ((first.through last, .array false (held ++ [item])), rest)

/-- The members of a table in braces after those in `held`.  A comma may follow the
last one. -/
def members? (levels : Nat) (first : Span) : Nat → Entries → List Lexed → Reading
  | 0, _, _ => none
  | _ + 1, held, ⟨.closeBrace, last⟩ :: rest =>
    some ((first.through last, .table .inline held), rest)
  | fuel + 1, held, tokens => do
    let (path, rest) ← keyPath? tokens
    let (_, rest) ← expectToken? .equals rest
    let ((span, value), rest) ← value? levels fuel (skipSpace rest)
    let held ← Entries.assign? path span value .inline held
    match skipLines rest with
    | ⟨.comma, _⟩ :: rest => members? levels first fuel held (skipLines rest)
    | rest =>
      let (last, rest) ← expectToken? .closeBrace rest
      some ((first.through last, .table .inline held), rest)

end

/-- How many arrays and tables in braces may be open at once. -/
def maxLevels : Nat := 80

/-! ## Lines -/

/-- A statement at the front of some tokens. -/
def statement? : List Lexed → Option (Statement × List Lexed)
  | ⟨.openBracket, first⟩ :: ⟨.openBracket, _⟩ :: rest => do
    let (path, rest) ← keyPath? (skipSpace rest)
    let (_, rest) ← expectToken? .closeBracket rest
    let (last, rest) ← expectToken? .closeBracket rest
    some (.element path (first.through last), rest)
  | ⟨.openBracket, first⟩ :: rest => do
    let (path, rest) ← keyPath? (skipSpace rest)
    let (last, rest) ← expectToken? .closeBracket rest
    some (.table path (first.through last), rest)
  | tokens => do
    let (path, rest) ← keyPath? tokens
    let (_, rest) ← expectToken? .equals rest
    let ((span, value), rest) ← value? maxLevels (2 * rest.length + 2) (skipSpace rest)
    some (.assignment path span value, rest)

/-- Skips the rest of a line on which nothing more is said. -/
def endLine? (tokens : List Lexed) : Option (List Lexed) :=
  let afterSpace := skipSpace tokens
  let rest := match afterSpace with
    | ⟨.comment, _⟩ :: rest => rest
    | rest => rest
  match rest with
  | [] => some []
  | ⟨.newline, _⟩ :: rest => some rest
  | _ => none

/-- The statements of a document of at most `fuel` lines. -/
def statementsFrom? : Nat → List Lexed → Option (List Statement)
  | 0, _ => none
  | fuel + 1, tokens =>
    match skipLines tokens with
    | [] => some []
    | tokens => do
      let (statement, rest) ← statement? tokens
      let rest ← endLine? rest
      let more ← statementsFrom? fuel rest
      return statement :: more

/-- The statements of a document. -/
def Statement.ofTokens? (tokens : List Lexed) : Option (List Statement) :=
  statementsFrom? (tokens.length + 1) tokens

end EditPipeline.Toml
