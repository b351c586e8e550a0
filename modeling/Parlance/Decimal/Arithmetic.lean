import Parlance.Decimal.Basic

/-!
# Sums and products

A sum or product is the exact result, rounded half to even to the largest scale that the bounds allow;
`none` means that not even scale 0 has room. The scale of an exact sum is the larger one of its parts,
that of an exact product the sum of both. A sum of zero keeps the sign of its first part only if both
coefficients fit 32 bits and the scales are at most nine apart.
-/

namespace Parlance.Decimal

/-- Whether a sum of zero keeps the sign of its first part. -/
def keepsZeroSign (a b : Decimal) : Bool :=
  a.coefficient < Nat.pow 2 32 && b.coefficient < Nat.pow 2 32 && a.scale ≤ b.scale + 9 && b.scale ≤ a.scale + 9

/-- The sum. Zero is neutral and leaves the scale of the other summand alone. -/
def add? (a b : Decimal) : Option Decimal :=
  if a.isZero then some b
  else if b.isZero then some a
  else
    let scale := max a.scale b.scale
    let total := a.signed * Nat.pow 10 (scale - a.scale) + b.signed * Nat.pow 10 (scale - b.scale)
    if total = 0 then ofParts? (a.negative && keepsZeroSign a b) 0 scale
    else fit? (total < 0) total.natAbs (Nat.pow 10 scale) scale

/-- The difference. -/
def sub? (a b : Decimal) : Option Decimal :=
  if a.isZero then some (if b.isZero then b else b.negate)
  else a.add? b.negate

/-- The product; a zero product has neither sign nor scale. -/
def mul? (a b : Decimal) : Option Decimal :=
  if a.isZero || b.isZero then some zero
  else
    fit? (a.negative != b.negative) (a.coefficient * b.coefficient) (Nat.pow 10 (a.scale + b.scale))
      (min maxScale (a.scale + b.scale))

end Parlance.Decimal
