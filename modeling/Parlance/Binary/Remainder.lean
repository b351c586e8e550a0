/-!
# Whole parts and remainders of doubles

`truncate?` cuts a finite double to a whole number. `remainder` is the exact remainder of the division
that rounds toward zero; it has the sign of the dividend.
-/

namespace Parlance.Binary

open Float.Model UnpackedFloat

/-- The double nearest to `mantissa * 2 ^ exponent`, zero with the given sign. -/
def ofParts (negative : Bool) (mantissa : Nat) (exponent : Int) : Float :=
  let sign : Sign := if negative then .negative else .positive
  .ofModel (.pack (UnpackedFloat.normalize .binary64 (sign.apply mantissa) exponent sign))

/-- The whole part of a finite double. -/
def truncate? (x : Float) : Option Int :=
  match x.toModel.unpack with
  | .notANumber | .infinity _ => none
  | .zero _ => some 0
  | .finite sign mantissa exponent _ =>
    some (sign.apply (if 0 ≤ exponent then mantissa * Nat.pow 2 exponent.toNat
      else mantissa / Nat.pow 2 (-exponent).toNat : Nat))

/-- The remainder of `x` by `y`: NaN for an infinite dividend or a zero divisor, the dividend itself
for an infinite divisor. -/
def remainder (x y : Float) : Float :=
  match x.toModel.unpack, y.toModel.unpack with
  | .notANumber, _ | _, .notANumber | .infinity _, _ | _, .zero _ => 0.0 / 0.0
  | _, .infinity _ | .zero _, _ => x
  | .finite sign m e _, .finite _ n f _ =>
    let least := min e f
    ofParts (sign == .negative) (m * Nat.pow 2 (e - least).toNat % (n * Nat.pow 2 (f - least).toNat)) least

/-- `x` times itself `n` times, by squaring: the low bits of `n` are taken first. -/
def powerBySquaring (x acc : Float) (n : Nat) : Float :=
  if n = 0 then acc
  else
    let acc := if n % 2 = 1 then acc * x else acc
    if n / 2 = 0 then acc else powerBySquaring (x * x) acc (n / 2)
termination_by n

end Parlance.Binary
