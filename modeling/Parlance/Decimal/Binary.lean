import Parlance.Binary.Remainder
import Parlance.Decimal.Basic

/-!
# Conversions between decimals and doubles

`toDouble` adds the fraction to the whole part in double arithmetic and rounds the sum to as many
places as the scale has. `ofDouble?` trades powers of two for powers of five and ten while the
coefficient has room, then cuts the result down to the precision of a double. Both are inexact in
their last digits; `ofDouble?` fails on what is not finite or too large.
-/

namespace Parlance.Decimal

/-! ## Decimal to double -/

/-- The nearest double up to the error of adding fraction and whole part. -/
def toDouble (d : Decimal) : Float :=
  if d.scale = 0 then Float.ofInt d.signed
  else
    let power := Nat.pow 10 d.scale
    let whole := Float.ofNat (d.coefficient / power)
    let fraction := Float.ofNat (d.coefficient % power) / Float.ofNat power
    let magnitude :=
      if fraction == 0.0 then whole
      else
        let shift := Parlance.Binary.powerBySquaring 10.0 1.0 d.scale
        ((whole + fraction) * shift).round / shift
    if d.negative then -magnitude else magnitude

/-! ## Double to decimal -/

/-- A coefficient with a power of ten. -/
structure Scaled where
  coefficient : Nat
  power : Int
  deriving DecidableEq, Repr

/-- Multiplies by a half `count` times: halves an even coefficient, else multiplies it by five and
takes a power of ten away, or halves it with loss when there is no room. -/
def Scaled.halve (s : Scaled) : Nat → Scaled
  | 0 => s
  | count + 1 =>
    if s.coefficient % 2 = 0 then halve ⟨s.coefficient / 2, s.power + 1⟩ count
    else if s.coefficient * 5 < limit then halve ⟨s.coefficient * 5, s.power⟩ count
    else halve ⟨s.coefficient / 2, s.power + 1⟩ count

/-- Multiplies by `1 / 5` `count` times: doubles the coefficient and takes a power of ten away while
there is room, else divides by five with loss; fails when too many powers of ten remain. -/
def Scaled.fifth? (s : Scaled) : Nat → Option Scaled
  | 0 => some s
  | count + 1 =>
    if s.coefficient < Nat.pow 2 95 then fifth? ⟨s.coefficient * 2, s.power - 1⟩ count
    else if (count + 1 : Int) < s.power * 2 then none
    else fifth? ⟨s.coefficient / 5, s.power⟩ count

/-- Moves `count` powers of ten into the coefficient. -/
def Scaled.raise? (s : Scaled) : Nat → Option Scaled
  | 0 => some s
  | count + 1 =>
    if s.coefficient * 10 < limit then raise? ⟨s.coefficient * 10, s.power - 1⟩ count else none

/-- Divides by ten and rounds a five upwards. -/
def tenth (n : Nat) : Nat := n / 10 + (if 5 ≤ n % 10 then 1 else 0)

/-- Moves powers of ten out of the coefficient until at most 28 places are left. -/
def Scaled.lower (s : Scaled) : Nat → Scaled
  | 0 => s
  | count + 1 =>
    if -(maxScale : Int) ≤ s.power then s
    else if s.coefficient / 10 = 0 then ⟨0, 0⟩
    else lower ⟨tenth s.coefficient, s.power + 1⟩ count

/-- Drops the digits after the point that go beyond the precision of a double. -/
def Scaled.cut (s : Scaled) : Nat → Scaled
  | 0 => s
  | count + 1 =>
    if s.power < 0 && Nat.pow 2 52 ≤ s.coefficient then cut ⟨tenth s.coefficient, s.power + 1⟩ count
    else s

/-- The decimal for the magnitude `mantissa * 2 ^ exponent`. -/
def ofMagnitude? (negative : Bool) (mantissa : Nat) (exponent : Int) : Option Decimal := do
  let start : Scaled := ⟨mantissa, exponent⟩
  let s ← (start.halve (-exponent).toNat).fifth? exponent.toNat
  let s ← s.raise? s.power.toNat
  let s := (s.lower (-s.power).toNat).cut maxScale
  let (coefficient, scale) := stripZeros s.coefficient (-s.power).toNat
  make? negative coefficient scale

/-- The decimal for a double, unless that is not finite or has no room. -/
def ofDouble? (x : Float) : Option Decimal :=
  match x.toModel.unpack with
  | .notANumber | .infinity _ => none
  | .zero sign => some { zero with negative := sign == .negative }
  | .finite sign mantissa exponent _ => ofMagnitude? (sign == .negative) mantissa exponent

end Parlance.Decimal
