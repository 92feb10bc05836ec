/-!
# Digits

The values of digits in bases up to sixteen.
-/

namespace EditPipeline.Text

/-- The value of a digit of a base, in either case. -/
def digitOf? (base : Nat) (c : Char) : Option Nat :=
  let n :=
    if c.isDigit then c.toNat - '0'.toNat
    else if 'a' ≤ c ∧ c ≤ 'f' then c.toNat - 'a'.toNat + 10
    else if 'A' ≤ c ∧ c ≤ 'F' then c.toNat - 'A'.toNat + 10
    else base
  if n < base then some n else none

end EditPipeline.Text
