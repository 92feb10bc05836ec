import EditPipeline.Json.Numeral
import EditPipeline.Text.Digit
import EditPipeline.Text.Span

/-!
# JSON tokens

`scan` cuts a text into tokens.  Two kinds of reader use them: one that wants
the values, and one that only skips a value it does not know.  The second is
more lenient, so a number or a string is a `Lexeme`, which says what each of the
two makes of it.  Scanning ends at the first token that neither accepts.
-/

namespace EditPipeline.Json

/-- What is wrong with a text that is not JSON. -/
inductive Fault where
  /-- A character stands where the grammar allows none like it. -/
  | malformed
  /-- The text ends too early. -/
  | truncated
deriving DecidableEq, Repr

/-- A literal as two kinds of reader take it. -/
structure Lexeme (α : Type) where
  /-- The value, for a reader that wants it. -/
  value : Except Fault α
  /-- What stops a reader that only skips the literal. -/
  skipped : Option Fault

/-- A literal that every reader accepts. -/
def Lexeme.ok {α : Type} (a : α) : Lexeme α := ⟨.ok a, none⟩

/-- A literal that no reader accepts. -/
def Lexeme.fail {α : Type} (fault : Fault) : Lexeme α := ⟨.error fault, some fault⟩

/-- A token. -/
inductive Token where
  | openArray
  | closeArray
  | openObject
  | closeObject
  | comma
  | colon
  | null
  | bool (b : Bool)
  | number (n : Lexeme Number)
  | string (s : Lexeme String)
  /-- A word that begins like `null`, `true` or `false` and goes on otherwise. -/
  | broken (fault : Fault)
  /-- A character that begins no token. -/
  | stray

/-! ## Strings -/

/-- One character between quotes, as written. -/
inductive Piece where
  /-- A character that stands for itself, or a short escape. -/
  | char (c : Char)
  /-- An escape of four hexadecimal digits. -/
  | unit (n : Nat)

/-- The value of four hexadecimal digits. -/
def hexUnit? (a b c d : Char) : Option Nat := do
  let a ← Text.digitOf? 16 a
  let b ← Text.digitOf? 16 b
  let c ← Text.digitOf? 16 c
  let d ← Text.digitOf? 16 d
  return ((a * 16 + b) * 16 + c) * 16 + d

/-- Why four hexadecimal digits cannot be read: fewer than four bytes are left,
or another character stands among them. -/
def hexFault (text : List Char) : Fault :=
  if byteSize (text.take 4) < 4 then .truncated else .malformed

/-- The character of an escape of one letter. -/
def shortEscape? (c : Char) : Option Char :=
  if c = '"' then some '"'
  else if c = '\\' then some '\\'
  else if c = '/' then some '/'
  else if c = 'b' then some '\x08'
  else if c = 'f' then some '\x0c'
  else if c = 'n' then some '\n'
  else if c = 'r' then some '\r'
  else if c = 't' then some '\t'
  else none

/-- What stands between the quotes of a string: its pieces, and either what
follows the closing quote or the fault that ends it. -/
structure Body where
  pieces : List Piece
  rest : Except Fault (List Char)

/-- The string with one more piece in front. -/
def Body.cons (piece : Piece) (body : Body) : Body :=
  { body with pieces := piece :: body.pieces }

/-- Reads a string after its opening quote. -/
def scanBody : List Char → Body
  | [] => ⟨[], .error .truncated⟩
  | '"' :: rest => ⟨[], .ok rest⟩
  | '\\' :: 'u' :: a :: b :: c :: d :: rest =>
    match hexUnit? a b c d with
    | some n => (scanBody rest).cons (.unit n)
    | none => ⟨[], .error (hexFault (a :: b :: c :: d :: rest))⟩
  | '\\' :: 'u' :: rest => ⟨[], .error (hexFault rest)⟩
  | '\\' :: c :: rest =>
    match shortEscape? c with
    | some e => (scanBody rest).cons (.char e)
    | none => ⟨[], .error .malformed⟩
  | ['\\'] => ⟨[], .error .truncated⟩
  | c :: rest =>
    if c.toNat < 0x20 then ⟨[], .error .malformed⟩ else (scanBody rest).cons (.char c)

/-- The first half of a pair of surrogates. -/
def IsLeading (n : Nat) : Prop := 0xD800 ≤ n ∧ n < 0xDC00

/-- The second half of a pair of surrogates. -/
def IsTrailing (n : Nat) : Prop := 0xDC00 ≤ n ∧ n < 0xE000

instance (n : Nat) : Decidable (IsLeading n) := inferInstanceAs (Decidable (_ ∧ _))

instance (n : Nat) : Decidable (IsTrailing n) := inferInstanceAs (Decidable (_ ∧ _))

/-- The character of a pair of surrogates. -/
def pairChar (leading trailing : Nat) : Char :=
  Char.ofNat (0x10000 + (leading - 0xD800) * 0x400 + (trailing - 0xDC00))

/-- Puts the pieces of a string together.  A first half of a pair must be
followed by an escape of a second half, and no second half stands alone. -/
def joinPieces (ending : Option Fault) : List Piece → Except Fault (List Char)
  | [] =>
    match ending with
    | none => .ok []
    | some fault => .error fault
  | .char c :: rest => (joinPieces ending rest).map (c :: ·)
  | .unit n :: .unit m :: rest =>
    if IsLeading n then
      if IsTrailing m then (joinPieces ending rest).map (pairChar n m :: ·)
      else .error .malformed
    else if IsTrailing n then .error .malformed
    else (joinPieces ending (.unit m :: rest)).map (Char.ofNat n :: ·)
  | .unit n :: rest =>
    if IsLeading n then
      .error (match rest, ending with
        | [], some fault => fault
        | _, _ => .malformed)
    else if IsTrailing n then .error .malformed
    else (joinPieces ending rest).map (Char.ofNat n :: ·)

/-- The fault that ends a string, if one does. -/
def Body.fault? (body : Body) : Option Fault :=
  match body.rest with
  | .ok _ => none
  | .error fault => some fault

/-- The string as the two kinds of reader take it. -/
def Body.lexeme (body : Body) : Lexeme String :=
  ⟨(joinPieces body.fault? body.pieces).map String.ofList, body.fault?⟩

/-! ## Numbers and words -/

/-- A number that breaks off, as the two kinds of reader take it: only a reader
that wants the value tells the end of the text from another character. -/
def brokenNumber : Numeral.Break → Lexeme Number
  | .atEnd => ⟨.error .truncated, some .malformed⟩
  | .atCharacter => Lexeme.fail .malformed

/-- A number as the two kinds of reader take it: one that is too large can only
be skipped. -/
def Numeral.lexeme (x : Numeral) : Lexeme Number :=
  match x.value with
  | some n => Lexeme.ok n
  | none => ⟨.error .malformed, none⟩

/-- What follows a word, if the text begins with it. -/
def scanWord : List Char → List Char → Except Fault (List Char)
  | [], rest => .ok rest
  | _ :: _, [] => .error .truncated
  | w :: word, c :: rest => if w = c then scanWord word rest else .error .malformed

/-! ## The scanner -/

/-- One token and what follows it; nothing follows a token that no reader
accepts. -/
structure Scanned where
  token : Token
  rest : List Char

/-- A word as a token. -/
def scannedWord (token : Token) (word rest : List Char) : Scanned :=
  match scanWord word rest with
  | .ok rest => ⟨token, rest⟩
  | .error fault => ⟨.broken fault, []⟩

/-- A string as a token, after its opening quote. -/
def scannedString (text : List Char) : Scanned :=
  let body := scanBody text
  ⟨.string body.lexeme, match body.rest with
    | .ok rest => rest
    | .error _ => []⟩

/-- A number as a token. -/
def scannedNumber (text : List Char) : Scanned :=
  match Numeral.scan text with
  | .ok (x, rest) => ⟨.number x.lexeme, rest⟩
  | .error b => ⟨.number (brokenNumber b), []⟩

/-- The token that begins with the character `c`. -/
def scanToken (c : Char) (rest : List Char) : Scanned :=
  match c with
  | '[' => ⟨.openArray, rest⟩
  | ']' => ⟨.closeArray, rest⟩
  | '\x7b' => ⟨.openObject, rest⟩
  | '\x7d' => ⟨.closeObject, rest⟩
  | ',' => ⟨.comma, rest⟩
  | ':' => ⟨.colon, rest⟩
  | '"' => scannedString rest
  | 'n' => scannedWord .null ['u', 'l', 'l'] rest
  | 't' => scannedWord (.bool true) ['r', 'u', 'e'] rest
  | 'f' => scannedWord (.bool false) ['a', 'l', 's', 'e'] rest
  | c => if c = '-' ∨ c.isDigit then scannedNumber (c :: rest) else ⟨.stray, []⟩

/-- The characters that separate tokens: space, tab, line feed and carriage
return. -/
def isSpace (c : Char) : Bool := c = ' ' || c = '\t' || c = '\n' || c = '\r'

/-! ### What follows a token is no longer than the text -/

theorem scanBody_length {text rest : List Char} (h : (scanBody text).rest = .ok rest) :
    rest.length < text.length := by
  fun_induction scanBody text generalizing rest with
  | case1 => simp at h
  | case2 text =>
    simp only [Except.ok.injEq] at h
    simp [h]
  | case3 a b c d text n hn ih =>
    have := ih h
    simp only [List.length_cons]
    omega
  | case4 => simp at h
  | case5 => simp at h
  | case6 =>
    rename_i ih
    have := ih h
    simp only [List.length_cons]
    omega
  | case7 => simp at h
  | case8 => simp at h
  | case9 => simp at h
  | case10 =>
    rename_i ih
    have := ih h
    simp only [List.length_cons]
    omega

theorem scanWord_length {word text rest : List Char} (h : scanWord word text = .ok rest) :
    rest.length ≤ text.length := by
  fun_induction scanWord word text with
  | case1 text =>
    simp only [Except.ok.injEq] at h
    simp [h]
  | case2 => simp at h
  | case3 c word text ih =>
    have := ih h
    simp only [List.length_cons]
    omega
  | case4 => simp at h

theorem scannedWord_length (token : Token) (word text : List Char) :
    (scannedWord token word text).rest.length ≤ text.length := by
  unfold scannedWord
  split
  · exact scanWord_length ‹_›
  · simp

theorem scannedString_length (text : List Char) :
    (scannedString text).rest.length ≤ text.length := by
  simp only [scannedString]
  split
  · exact Nat.le_of_lt (scanBody_length ‹_›)
  · simp

theorem scannedNumber_length (c : Char) (text : List Char) :
    (scannedNumber (c :: text)).rest.length ≤ text.length := by
  unfold scannedNumber
  split
  · rename_i h
    have := Numeral.scan_length h
    simp only [List.length_cons] at this
    simpa using Nat.le_of_lt_succ this
  · simp

/-- What follows a token is no longer than what follows its first character. -/
theorem scanToken_length (c : Char) (text : List Char) :
    (scanToken c text).rest.length ≤ text.length := by
  unfold scanToken
  split <;> try exact Nat.le_refl _
  · exact scannedString_length text
  · exact scannedWord_length ..
  · exact scannedWord_length ..
  · exact scannedWord_length ..
  · split
    · exact scannedNumber_length _ text
    · simp

/-- The tokens of a text, up to and including the first one that no reader
accepts. -/
def scan : List Char → List Token
  | [] => []
  | c :: text =>
    if isSpace c then scan text
    else (scanToken c text).token :: scan (scanToken c text).rest
termination_by text => text.length
decreasing_by
  · simp
  · have := scanToken_length c text
    simp only [List.length_cons]
    omega

end EditPipeline.Json
