import EditPipeline.Decimal.Word
import EditPipeline.Text.Digit
import EditPipeline.Toml.Value

/-!
# TOML scalars

What stands for a boolean, a number or a date without quotes around it.
-/

namespace EditPipeline.Toml

/-! ## Digits -/

/-- A row of digits of a base with single underscores between them, as its value. -/
def digits? (base : Nat) (text : List Char) : Option Nat :=
  let rec go : Bool → Nat → List Char → Option Nat
    | afterDigit, n, [] => if afterDigit then some n else none
    | afterDigit, n, '_' :: rest => if afterDigit then go false n rest else none
    | _, n, c :: rest => do
      let d ← Text.digitOf? base c
      go true (base * n + d) rest
  go false 0 text

/-- A row of decimal digits. -/
def decimal? (text : List Char) : Option Nat := digits? 10 text

/-- A row of decimal digits that has no zero in front of another digit. -/
def whole? (text : List Char) : Option Nat :=
  match text with
  | '0' :: _ :: _ => none
  | _ => decimal? text

/-- A sign and what follows it. -/
def sign : List Char → Bool × List Char
  | '-' :: rest => (true, rest)
  | '+' :: rest => (false, rest)
  | rest => (false, rest)

/-! ## Numbers -/

/-- An integer that fits into a signed word of 64 bits. -/
def word? (n : Int) : Option Value :=
  if -Word.signed64 ≤ n ∧ n < Word.signed64 then some (.integer n) else none

/-- An integer: decimal with a sign, or of another base without one. -/
def integer? (text : List Char) : Option Value :=
  match text with
  | '0' :: 'x' :: rest => (digits? 16 rest).bind fun n => word? n
  | '0' :: 'o' :: rest => (digits? 8 rest).bind fun n => word? n
  | '0' :: 'b' :: rest => (digits? 2 rest).bind fun n => word? n
  | _ =>
    let (negative, rest) := sign text
    (whole? rest).bind fun n => word? (if negative then -n else n)

/-- The text before and after the first character that satisfies `p`. -/
def splitAt? (p : Char → Bool) (text : List Char) : List Char × Option (List Char) :=
  match text.dropWhile (!p ·) with
  | [] => (text, none)
  | _ :: rest => (text.takeWhile (!p ·), some rest)

/-- The double nearest to `digits * 10 ^ exponent`; nothing if it is infinite. -/
def nearest? (digits : Nat) (exponent : Int) : Option Float :=
  let size : Int := exponent + (Nat.toDigits 10 digits).length
  if digits = 0 ∨ size < -400 then some 0
  else if 400 < size then none
  else
    let x :=
      if exponent < 0 then Float.ofScientific digits true exponent.natAbs
      else Float.ofScientific digits false exponent.toNat
    if x.isInf then none else some x

/-- The exponent of a float. -/
def exponent? (text : List Char) : Option Int :=
  let (negative, rest) := sign text
  (decimal? rest).map fun n => if negative then -(n : Int) else n

/-- The magnitude of a float: digits with a point or an exponent, or both. -/
def magnitude? (text : List Char) : Option Float :=
  if text = ['i', 'n', 'f'] then some (1.0 / 0.0)
  else if text = ['n', 'a', 'n'] then some (0.0 / 0.0)
  else do
    let (mantissa, exponent) := splitAt? (fun c => c = 'e' || c = 'E') text
    let (whole, fraction) := splitAt? (· = '.') mantissa
    if exponent.isNone && fraction.isNone then none
    let _ ← whole? whole
    let places ← match fraction with
      | none => some []
      | some fraction => (decimal? fraction).map fun _ => fraction.filter (· ≠ '_')
    let shift ← match exponent with
      | none => some 0
      | some exponent => exponent? exponent
    let digits ← decimal? (whole ++ places)
    nearest? digits (shift - places.length)

/-- A float. -/
def float? (text : List Char) : Option Value :=
  let (negative, rest) := sign text
  (magnitude? rest).map fun x => .float (if negative then -x else x)

/-! ## Dates and times -/

/-- Splits as many digits off a text, and gives their value. -/
def fixed? (count : Nat) (text : List Char) : Option (Nat × List Char) :=
  let front := text.take count
  if front.length = count ∧ front.all Char.isDigit ∧
      !((text.drop count).head?.any Char.isDigit) then
    (decimal? front).map fun n => (n, text.drop count)
  else none

/-- Splits a character off a text. -/
def expect? (p : Char → Bool) : List Char → Option (List Char)
  | [] => none
  | c :: rest => if p c then some rest else none

/-- How many days a month has. -/
def daysOf (year month : Nat) : Nat :=
  if month = 2 then
    if year % 4 = 0 ∧ (year % 100 ≠ 0 ∨ year % 400 = 0) then 29 else 28
  else if month ∈ [4, 6, 9, 11] then 30 else 31

/-- Splits a date off a text. -/
def date? (text : List Char) : Option (List Char) := do
  let (year, rest) ← fixed? 4 text
  let (month, rest) ← fixed? 2 (← expect? (· = '-') rest)
  let (day, rest) ← fixed? 2 (← expect? (· = '-') rest)
  if 1 ≤ month ∧ month ≤ 12 ∧ 1 ≤ day ∧ day ≤ daysOf year month then some rest else none

/-- Splits hours and minutes off a text. -/
def clock? (text : List Char) : Option (List Char) := do
  let (hour, rest) ← fixed? 2 text
  let (minute, rest) ← fixed? 2 (← expect? (· = ':') rest)
  if hour ≤ 23 ∧ minute ≤ 59 then some rest else none

/-- Splits a time off a text; the seconds and their fraction may be missing. -/
def time? (text : List Char) : Option (List Char) := do
  match ← clock? text with
  | ':' :: rest =>
    let (second, rest) ← fixed? 2 rest
    if second ≤ 60 then
      match rest with
      | '.' :: fraction =>
        if fraction.head?.any Char.isDigit then some (fraction.dropWhile Char.isDigit) else none
      | rest => some rest
    else none
  | rest => some rest

/-- Splits an offset from universal time off a text, if one follows. -/
def offset? (text : List Char) : Option (List Char) :=
  match text with
  | [] => some []
  | c :: rest =>
    if c = 'Z' ∨ c = 'z' then some rest
    else if c = '+' ∨ c = '-' then clock? rest
    else none

/-- A date, a time, or both with or without an offset. -/
def isDatetime (text : List Char) : Bool :=
  match date? text with
  | some [] => true
  | some (c :: rest) =>
    (c = 'T' || c = 't' || c = ' ') && ((time? rest).bind offset?) == some []
  | none => time? text == some []

/-- Whether a text has the form of a date alone. -/
def isDate (text : List Char) : Bool := date? text == some []

/-! ## All scalars -/

/-- What a scalar stands for. -/
def scalar? (text : List Char) : Option Value :=
  if text = ['t', 'r', 'u', 'e'] then some (.boolean true)
  else if text = ['f', 'a', 'l', 's', 'e'] then some (.boolean false)
  else if isDatetime text then some .datetime
  else (integer? text).or (float? text)

end EditPipeline.Toml
