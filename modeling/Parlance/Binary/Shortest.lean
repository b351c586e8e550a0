/-!
# Shortest decimal digits of a binary number

A binary floating-point number stands for every real that rounds to it. `shortest` finds the decimal
with the fewest digits in that interval, and of those with equally few the one nearest to the number;
where two are equally near, a `Tie` says which.
The search is over decimal grids: on the grid of `n` significant digits only the two neighbours of the
number can lie in the interval, so the first grid on which one does gives the answer. All comparisons
are between natural numbers.
-/

namespace Parlance.Binary

/-- The magnitude `mantissa * 2 ^ exponent` of a finite number that is not zero. `narrow` holds where
the next smaller number is only half as far away as the next larger one. -/
structure Magnitude where
  mantissa : Nat
  exponent : Int
  narrow : Bool
  deriving DecidableEq, Repr

/-- The number `coefficient * 10 ^ exponent`. -/
structure Digits where
  coefficient : Nat
  exponent : Int
  deriving DecidableEq, Repr

/-- Which of two equally near points is taken: the upper one, or the even one. -/
inductive Tie where
  | upper | even
  deriving DecidableEq, Repr

namespace Digits

/-- The digits of the coefficient, the leading one first. -/
def list (d : Digits) : List Char := Nat.toDigits 10 d.coefficient

/-- The position of the decimal point: the number is `0.ddd` times ten to this power. -/
def point (d : Digits) : Int := d.exponent + d.list.length

end Digits

/-- `base ^ e` for a positive exponent, else 1. -/
def powerAbove (base : Nat) (e : Int) : Nat := Nat.pow base e.toNat

/-- `base ^ (-e)` for a negative exponent, else 1. -/
def powerBelow (base : Nat) (e : Int) : Nat := Nat.pow base (-e).toNat

/-- Whether the lower of two neighbours is taken, given their distances from the number. -/
def Tie.takesLower (tie : Tie) (lower : Nat) (below above : Nat) : Bool :=
  below < above || below == above && tie == .even && lower % 2 == 0

/-- The best point for a magnitude on the grid of multiples of `10 ^ grid`, if one of the two
neighbours rounds back to it. The interval ends belong to it iff the mantissa is even. -/
def nearestOnGrid? (tie : Tie) (m : Magnitude) (grid : Int) : Option Nat :=
  -- the number, its lower and its upper end, in units of a quarter of the last binary place
  let value := 4 * m.mantissa
  let lower := value - (if m.narrow then 1 else 2)
  let upper := value + 2
  -- a quarter place and a grid step, over a common denominator
  let place := powerAbove 2 (m.exponent - 2) * powerBelow 10 grid
  let step := powerAbove 10 grid * powerBelow 2 (m.exponent - 2)
  let holds := fun n : Nat =>
    if m.mantissa % 2 = 0 then lower * place ≤ n * step && n * step ≤ upper * place
    else lower * place < n * step && n * step < upper * place
  let down := value * place / step
  let up := down + 1
  let downIn := holds down && down != 0
  if downIn && holds up then
    some (if tie.takesLower down (value * place - down * step) (up * step - value * place) then down
      else up)
  else if downIn then some down
  else if holds up then some up
  else none

/-- The first grid from `grid` downwards on which a point rounds back to the magnitude. -/
def searchGrids (tie : Tie) (m : Magnitude) (grid : Int) : Nat → Digits
  | 0 => ⟨m.mantissa, 0⟩
  | count + 1 =>
    match nearestOnGrid? tie m grid with
    | some n => ⟨n, grid⟩
    | none => searchGrids tie m (grid - 1) count

/-- The power of ten just above a magnitude, or one more. -/
def decimalBound (m : Magnitude) : Int :=
  let up := m.mantissa * powerAbove 2 m.exponent
  let down := powerBelow 2 m.exponent
  if down ≤ up then (Nat.toDigits 10 (up / down)).length
  else 2 - ((Nat.toDigits 10 (down / up)).length : Int)

/-- Divides out trailing zeros, at most `count` of them. -/
def Digits.dropZeros (d : Digits) : Nat → Digits
  | 0 => d
  | count + 1 =>
    if d.coefficient % 10 = 0 then dropZeros ⟨d.coefficient / 10, d.exponent + 1⟩ count else d

/-- The shortest digits that round back to a magnitude. -/
def shortest (tie : Tie) (m : Magnitude) : Digits :=
  let d := searchGrids tie m (decimalBound m) 20
  d.dropZeros d.list.length

end Parlance.Binary
