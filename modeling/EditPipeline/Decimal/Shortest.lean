import EditPipeline.Decimal.Word

/-!
# The shortest decimal of a double

A double stands for every real number that rounds to it.  Of the decimals among
these, `Binary.shortest` gives the one on the coarsest grid of powers of ten,
hence the one with the fewest digits, and of two on that grid the nearer.

## Strategy

A double is decoded into `mantissa * 2 ^ exponent`.  In quarters of that unit
the reals that round to it run from `low` to `high`, so every comparison with a
decimal `d * 10 ^ k` is one of natural numbers.  The grids are tried from the
coarsest down; the double itself lies on the grid `10 ^ exponent`, or on
`10 ^ 0` where its exponent is positive, and there the search ends at the
latest.
-/

namespace EditPipeline.Decimal

/-- The decimal `digits * 10 ^ exponent`. -/
structure Scientific where
  digits : Nat
  exponent : Int
deriving DecidableEq, Repr

/-- The magnitude of a double, `mantissa * 2 ^ exponent`. -/
structure Binary where
  mantissa : Nat
  exponent : Int
deriving DecidableEq, Repr

namespace Binary

/-- The bit of a mantissa that is not stored, since it is always set. -/
abbrev leadingBit : Nat := 0x10000000000000

/-- The magnitude of a finite double, its sign dropped. -/
def ofFloat (x : Float) : Binary :=
  let bits := x.toBits.toNat % Word.signed64
  let fraction := bits % leadingBit
  let field : Nat := bits / leadingBit
  if field = 0 then { mantissa := fraction, exponent := -1074 }
  else { mantissa := leadingBit + fraction, exponent := (field : Int) - 1075 }

/-- The least real that rounds to the double, in quarters of its unit.  Below a
power of two the neighbour is only half a unit away. -/
def low (x : Binary) : Nat :=
  if x.mantissa = leadingBit ∧ x.exponent ≠ -1074 then 4 * x.mantissa - 1
  else 4 * x.mantissa - 2

/-- The greatest real that rounds to the double, in quarters of its unit. -/
def high (x : Binary) : Nat := 4 * x.mantissa + 2

/-- One step of the grid `10 ^ k`, on the scale that `perQuarter` shares. -/
def perStep (x : Binary) (k : Int) : Nat := Nat.pow 10 k.toNat * Nat.pow 2 (2 - x.exponent).toNat

/-- A quarter of the double's unit, on the scale that `perStep` shares. -/
def perQuarter (x : Binary) (k : Int) : Nat :=
  Nat.pow 2 (x.exponent - 2).toNat * Nat.pow 10 (-k).toNat

/-- Whether `d * 10 ^ k` rounds to the double.  The two ends round to it when
the mantissa is even. -/
def accepts (x : Binary) (k : Int) (d : Nat) : Bool :=
  let value := d * x.perStep k
  let least := x.low * x.perQuarter k
  let greatest := x.high * x.perQuarter k
  if x.mantissa % 2 = 0 then least ≤ value && value ≤ greatest
  else least < value && value < greatest

/-- The multiple of `10 ^ k` that rounds to the double; the nearer one if its
two neighbours on the grid do, the even one if they are equally near. -/
def onGrid? (x : Binary) (k : Int) : Option Nat :=
  let value := 4 * x.mantissa * x.perQuarter k
  let below := value / x.perStep k
  let above := below + 1
  match x.accepts k below, x.accepts k above with
  | true, true =>
    let down := value - below * x.perStep k
    let up := above * x.perStep k - value
    if down < up ∨ (down = up ∧ below % 2 = 0) then some below else some above
  | true, false => some below
  | false, true => some above
  | false, false => none

/-- The first hit on the grids `10 ^ k`, `10 ^ (k - 1)`, and so on for `n`
grids. -/
def firstOnGrid? (x : Binary) : Nat → Int → Option Scientific
  | 0, _ => none
  | n + 1, k =>
    match x.onGrid? k with
    | some d => some ⟨d, k⟩
    | none => firstOnGrid? x n (k - 1)

/-- The shortest decimal that rounds to the double.  No double reaches
`10 ^ 309`, and each lies on the grid `10 ^ exponent`, or on `10 ^ 0` where its
exponent is positive. -/
def shortest (x : Binary) : Scientific :=
  (x.firstOnGrid? (309 + (-x.exponent).toNat) 308).getD ⟨x.mantissa, 0⟩

end Binary

/-- The decimal digits of a number, the first one leading. -/
def digitsOf (n : Nat) : List Char := Nat.toDigits 10 n

/-- A finite decimal written out without an exponent: `digits` with the point
`scale` places from the right, and `.0` after an integer. -/
def positional (digits : List Char) (exponent : Int) : List Char :=
  if 0 ≤ exponent then
    digits ++ List.replicate exponent.toNat '0' ++ ['.', '0']
  else
    let places := (-exponent).toNat
    if places < digits.length then
      digits.take (digits.length - places) ++ '.' :: digits.drop (digits.length - places)
    else
      '0' :: '.' :: List.replicate (places - digits.length) '0' ++ digits

end EditPipeline.Decimal
