/-!
# Decimal numbers

A decimal number is a sign, a coefficient below 2 ^ 96 and a scale of at most 28: its value is the
coefficient divided by ten to the scale. Both bounds are part of the type. Numbers that differ only in
trailing zeros, or in the sign of zero, are equal in value; `normalize` picks the one with the least
scale, and `compare` orders by value.
-/

namespace Parlance

/-- Coefficients stay below this bound. -/
def Decimal.limit : Nat := Nat.pow 2 96

/-- A coefficient with a sign, divided by ten to the scale. -/
structure Decimal where
  negative : Bool
  coefficient : Nat
  scale : Nat
  coefficient_lt : coefficient < Decimal.limit
  scale_le : scale ≤ 28
  deriving DecidableEq, Repr

namespace Decimal

/-- The most digits after the point. -/
def maxScale : Nat := 28

/-- The number with these parts, if they are within the bounds. -/
def ofParts? (negative : Bool) (coefficient scale : Nat) : Option Decimal :=
  if h : coefficient < limit ∧ scale ≤ 28 then
    some ⟨negative, coefficient, scale, h.1, h.2⟩
  else none

/-- The number with these parts, if they are within the bounds; a zero loses its sign. -/
def make? (negative : Bool) (coefficient scale : Nat) : Option Decimal :=
  ofParts? (negative && coefficient != 0) coefficient scale

/-- Zero, without sign or scale. -/
def zero : Decimal := ⟨false, 0, 0, by decide, by decide⟩

instance : Inhabited Decimal := ⟨zero⟩

/-- Whether the value is zero, whatever the sign and the scale. -/
def isZero (d : Decimal) : Bool := d.coefficient == 0

/-- The coefficient with its sign. -/
def signed (d : Decimal) : Int :=
  if d.negative then -(d.coefficient : Int) else d.coefficient

/-- The same number with the other sign. -/
def negate (d : Decimal) : Decimal := { d with negative := !d.negative }

/-- The whole number `n`, if it is within the bounds. -/
def ofInt? (n : Int) : Option Decimal :=
  make? (n < 0) n.natAbs 0

/-! ## Order -/

/-- The sign of `a - b`, computed over a common denominator. -/
def compare (a b : Decimal) : Ordering :=
  Ord.compare (a.signed * Nat.pow 10 b.scale) (b.signed * Nat.pow 10 a.scale)

/-! ## Normal form -/

/-- Divides out tens, at most `scale` of them: the remaining coefficient and scale. -/
def stripZeros (coefficient : Nat) : Nat → Nat × Nat
  | 0 => (coefficient, 0)
  | scale + 1 =>
    if coefficient % 10 = 0 then stripZeros (coefficient / 10) scale
    else (coefficient, scale + 1)

theorem stripZeros_le (coefficient scale : Nat) :
    (stripZeros coefficient scale).1 ≤ coefficient ∧ (stripZeros coefficient scale).2 ≤ scale := by
  induction scale generalizing coefficient with
  | zero => simp [stripZeros]
  | succ scale ih =>
    unfold stripZeros
    split
    · have := ih (coefficient / 10)
      exact ⟨Nat.le_trans this.1 (Nat.div_le_self ..), Nat.le_trans this.2 (Nat.le_succ _)⟩
    · simp

/-- The number without trailing zeros after the point; it keeps its sign. -/
def strip (d : Decimal) : Decimal :=
  ⟨d.negative, (stripZeros d.coefficient d.scale).1, (stripZeros d.coefficient d.scale).2,
    Nat.lt_of_le_of_lt (stripZeros_le ..).1 d.coefficient_lt,
    Nat.le_trans (stripZeros_le ..).2 d.scale_le⟩

/-- The number of equal value with the least scale; zero has no sign. -/
def normalize (d : Decimal) : Decimal :=
  if d.isZero then zero else d.strip

/-! ## Rounding -/

/-- The quotient rounded to the nearest whole number, a half to the even one. -/
def roundHalfEven (num den : Nat) : Nat :=
  let q := num / den
  let twice := 2 * (num % den)
  if twice < den then q
  else if den < twice then q + 1
  else if q % 2 = 0 then q else q + 1

/-- The quotient rounded to the nearest whole number, a half upwards. -/
def roundHalfUp (num den : Nat) : Nat := (2 * num + den) / (2 * den)

/-- The value `num / den` at the largest scale up to `scale` at which its rounded coefficient is below
the limit. -/
def fit? (negative : Bool) (num den : Nat) : Nat → Option Decimal
  | 0 => make? negative (roundHalfEven num den) 0
  | scale + 1 =>
    match make? negative (roundHalfEven (num * Nat.pow 10 (scale + 1)) den) (scale + 1) with
    | some d => some d
    | none => fit? negative num den scale

/-- Cuts off the digits after the point. -/
def truncate (d : Decimal) : Int :=
  if d.negative then -(d.coefficient / Nat.pow 10 d.scale : Nat) else (d.coefficient / Nat.pow 10 d.scale : Nat)

/-- The number rounded to `places` digits after the point, a half to the even neighbour. A zero takes as
many digits as it may have of those asked for; another number that has no more stays as it is. -/
def roundTo (d : Decimal) (places : Nat) : Decimal :=
  if d.isZero then { d with scale := min places maxScale, scale_le := Nat.min_le_right .. }
  else if d.scale ≤ places then d
  else
    (make? d.negative (roundHalfEven d.coefficient (Nat.pow 10 (d.scale - places))) places).getD d

end Decimal

end Parlance
