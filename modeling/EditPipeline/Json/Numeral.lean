import EditPipeline.Json.Value

/-!
# Numerals

The text of a number, and the number that it stands for.  `Numeral.scan` splits
the longest numeral off a text; `Numeral.value` computes what it stands for.

An integer that fits into 64 bits is that integer.  Any other numeral is a
double: the digits are collected into one 64-bit significand, the ones that do
not fit only move the point, and the significand is then scaled by one power of
ten.  A numeral whose double would be infinite stands for nothing.
-/

namespace EditPipeline.Json

/-- A numeral taken apart. -/
structure Numeral where
  /-- It begins with a minus sign. -/
  negative : Bool
  /-- The digits before the point. -/
  whole : List Char
  /-- The digits after the point; none if there is no point. -/
  fraction : List Char := []
  /-- The exponent: whether it is negative, and its digits. -/
  exponent : Option (Bool × List Char) := none
deriving DecidableEq, Repr

namespace Numeral

/-! ## Splitting a numeral off a text -/

/-- How a numeral can break off. -/
inductive Break where
  /-- The text ends where a digit must follow. -/
  | atEnd
  /-- Another character stands where a digit must follow, or a digit follows a
  leading zero. -/
  | atCharacter
deriving DecidableEq, Repr

/-- The digits at the front of a text, at least one, and what follows them. -/
def digits (text : List Char) : Except Break (List Char × List Char) :=
  match text with
  | [] => .error .atEnd
  | c :: _ =>
    if c.isDigit then .ok (text.takeWhile Char.isDigit, text.dropWhile Char.isDigit)
    else .error .atCharacter

/-- The digits before the point: a lone zero, or digits that begin with another
one. -/
def scanWhole (text : List Char) : Except Break (List Char × List Char) :=
  match text with
  | '0' :: c :: rest => if c.isDigit then .error .atCharacter else .ok (['0'], c :: rest)
  | _ => digits text

/-- The point and the digits after it, if a point follows. -/
def scanFraction (text : List Char) : Except Break (List Char × List Char) :=
  match text with
  | '.' :: rest => digits rest
  | _ => .ok ([], text)

/-- The sign of an exponent and what follows it. -/
def scanSign : List Char → Bool × List Char
  | '-' :: rest => (true, rest)
  | '+' :: rest => (false, rest)
  | rest => (false, rest)

/-- The exponent, if one follows. -/
def scanExponent (text : List Char) :
    Except Break (Option (Bool × List Char) × List Char) :=
  match text with
  | c :: rest =>
    if c = 'e' ∨ c = 'E' then
      let (negative, rest) := scanSign rest
      (digits rest).map fun (ds, rest) => (some (negative, ds), rest)
    else .ok (none, text)
  | [] => .ok (none, text)

/-- Whether the text begins with a minus sign, and what follows it. -/
def scanMinus : List Char → Bool × List Char
  | '-' :: rest => (true, rest)
  | rest => (false, rest)

/-- The numeral at the front of a text, and what follows it. -/
def scan (text : List Char) : Except Break (Numeral × List Char) := do
  let (negative, rest) := scanMinus text
  let (whole, rest) ← scanWhole rest
  let (fraction, rest) ← scanFraction rest
  let (exponent, rest) ← scanExponent rest
  return ({ negative, whole, fraction, exponent }, rest)

/-! ### What follows a numeral is no longer than the text -/

theorem length_dropWhile_le (p : Char → Bool) (text : List Char) :
    (text.dropWhile p).length ≤ text.length :=
  (List.dropWhile_suffix p).length_le

theorem digits_length {text ds rest : List Char} (h : digits text = .ok (ds, rest)) :
    rest.length < text.length := by
  cases text with
  | nil => simp [digits] at h
  | cons c cs =>
    simp only [digits] at h
    split at h
    · rename_i hc
      simp only [Except.ok.injEq, Prod.mk.injEq] at h
      rw [← h.2, List.dropWhile_cons_of_pos hc]
      have := length_dropWhile_le Char.isDigit cs
      simp only [List.length_cons]
      omega
    · simp at h

theorem scanWhole_length {text ds rest : List Char} (h : scanWhole text = .ok (ds, rest)) :
    rest.length < text.length := by
  unfold scanWhole at h
  split at h
  · split at h
    · simp at h
    · simp only [Except.ok.injEq, Prod.mk.injEq] at h
      simp [← h.2]
  · exact digits_length h

theorem scanFraction_length {text ds rest : List Char}
    (h : scanFraction text = .ok (ds, rest)) : rest.length ≤ text.length := by
  unfold scanFraction at h
  split at h
  · have := digits_length h
    simp only [List.length_cons]
    omega
  · simp only [Except.ok.injEq, Prod.mk.injEq] at h
    simp [← h.2]

theorem scanSign_length (text : List Char) : (scanSign text).2.length ≤ text.length := by
  unfold scanSign
  split <;> simp

theorem scanExponent_length {text rest : List Char} {x : Option (Bool × List Char)}
    (h : scanExponent text = .ok (x, rest)) : rest.length ≤ text.length := by
  cases text with
  | nil => simp only [scanExponent, Except.ok.injEq, Prod.mk.injEq] at h; simp [← h.2]
  | cons c cs =>
    simp only [scanExponent] at h
    split at h
    · cases hd : digits (scanSign cs).2 with
      | error b => simp [hd, Except.map] at h
      | ok found =>
        simp only [hd, Except.map, Except.ok.injEq, Prod.mk.injEq] at h
        have hfound := digits_length hd
        have := scanSign_length cs
        rw [← h.2]
        simp only [List.length_cons]
        omega
    · simp only [Except.ok.injEq, Prod.mk.injEq] at h
      simp [← h.2]

theorem scanMinus_length (text : List Char) : (scanMinus text).2.length ≤ text.length := by
  unfold scanMinus
  split <;> simp

/-- A numeral takes at least one character. -/
theorem scan_length {text rest : List Char} {x : Numeral} (h : scan text = .ok (x, rest)) :
    rest.length < text.length := by
  have hm := scanMinus_length text
  simp only [scan, bind, Except.bind, pure, Except.pure] at h
  cases hw : scanWhole (scanMinus text).2 with
  | error b => simp [hw] at h
  | ok whole =>
    have := scanWhole_length hw
    simp only [hw] at h
    cases hf : scanFraction whole.2 with
    | error b => simp [hf] at h
    | ok fraction =>
      have := scanFraction_length hf
      simp only [hf] at h
      cases he : scanExponent fraction.2 with
      | error b => simp [he] at h
      | ok exponent =>
        have := scanExponent_length he
        simp only [he, Except.ok.injEq, Prod.mk.injEq] at h
        rw [← h.2]
        omega

/-! ## What a numeral stands for -/

/-- The number that a row of digits stands for. -/
def natOfDigits (digits : List Char) : Nat :=
  digits.foldl (fun n c => 10 * n + (c.toNat - '0'.toNat)) 0

/-- Appends digits to a significand while it stays below the limit of a word; gives it with
the number of digits taken. -/
def absorb (significand : Nat) : List Char → Nat × Nat
  | [] => (significand, 0)
  | c :: rest =>
    let next := 10 * significand + (c.toNat - '0'.toNat)
    if next < Word.unsigned64 then
      let (final, taken) := absorb next rest
      (final, taken + 1)
    else (significand, 0)

/-- The greatest power of ten that is a double. -/
def greatestPower : Nat := 308

/-- The double nearest to a power of ten. -/
def powerOfTen (n : Nat) : Float := Float.ofScientific 1 false n

/-- Divides by `10 ^ n`, in steps of the greatest power of ten. -/
def scaleDown (x : Float) (n : Nat) : Float :=
  if n ≤ greatestPower then x / powerOfTen n
  else if x == 0 then x
  else scaleDown (x / powerOfTen greatestPower) (n - greatestPower)
termination_by n
decreasing_by simp only [greatestPower] at *; omega

/-- The significand times a power of ten, unless it is infinite. -/
def scale (significand : Nat) (exponent : Int) : Option Float :=
  let x := Float.ofNat significand
  if exponent < 0 then some (scaleDown x exponent.natAbs)
  else if exponent.toNat ≤ greatestPower then
    let y := x * powerOfTen exponent.toNat
    if y.isInf then none else some y
  else if x == 0 then some x
  else none

/-- Exponents stay in the range of a signed 32-bit word. -/
def clampExponent (n : Int) : Int :=
  if n < -Word.signed32 then -Word.signed32
  else if n < Word.signed32 then n
  else Word.signed32 - 1

/-- The magnitude of a numeral as a double. -/
def magnitude (x : Numeral) : Option Float :=
  let (whole, taken) := absorb 0 x.whole
  let dropped := x.whole.length - taken
  let (significand, places) := absorb whole x.fraction
  let point : Int := (dropped : Int) - places
  match x.exponent with
  | none => scale significand point
  | some (negative, ds) =>
    let n := natOfDigits ds
    if n < Word.signed32 then
      scale significand (clampExponent (if negative then point - n else point + n))
    else if significand = 0 ∨ negative then some 0
    else none

/-- The numeral as a double with its sign. -/
def float (x : Numeral) : Option Number :=
  x.magnitude.map fun y => .float (if x.negative then -y else y)

/-- The number that a numeral stands for; nothing if it is too large for a
double. -/
def value (x : Numeral) : Option Number :=
  if x.fraction.isEmpty && x.exponent.isNone then
    let n := natOfDigits x.whole
    if x.negative then
      if 0 < n ∧ n ≤ Word.signed64 then some (.integer (-n)) else x.float
    else if n < Word.unsigned64 then some (.integer n)
    else x.float
  else x.float

end Numeral

end EditPipeline.Json
