import Parlance.Decimal.Basic

/-!
# Quotients and remainders

A quotient is computed by long division, up to nine digits at a time, until nothing is left or there is
no room for a further digit; then it is rounded half to even. One that did not come out even at once
loses trailing zeros, but not always all of them. A remainder has the sign of the dividend. It is
computed in words of 32 bits when the divisor takes more than 64 bits, and a step whose dividend starts
with the leading word of the divisor then only drops that word.
-/

namespace Parlance.Decimal

/-! ## Long division -/

/-- A division under way: the digits so far, what is left of the dividend, and the scale, which may
still be negative. -/
structure Division where
  quotient : Nat
  remainder : Nat
  scale : Int
  deriving DecidableEq, Repr

namespace Division

/-- How many further digits, at most nine, the bounds have room for. -/
def room (s : Division) : Nat :=
  [1, 2, 3, 4, 5, 6, 7, 8, 9].countP fun digits : Nat =>
    s.scale + digits ≤ maxScale && s.quotient * Nat.pow 10 digits < limit

/-- Brings down further digits. -/
def extend (s : Division) (divisor digits : Nat) : Division :=
  let left := s.remainder * Nat.pow 10 digits
  ⟨s.quotient * Nat.pow 10 digits + left / divisor, left % divisor, s.scale + digits⟩

/-- Gives up the last digit of a quotient that is beyond the limit, rounding half to even; `more` says
that something is left below that digit. -/
def shorten? (s : Division) (more : Bool) : Option Division :=
  if s.quotient < limit then some s
  else if s.scale < 1 then none
  else
    let kept := s.quotient / 10
    let digit := s.quotient % 10
    let up := 5 < digit || digit == 5 && (more || kept % 2 == 1)
    some ⟨if up then kept + 1 else kept, 0, s.scale - 1⟩

/-- Rounds by what is left of the dividend, a half to the even neighbour. -/
def round? (s : Division) (divisor : Nat) : Option Division :=
  let twice := 2 * s.remainder
  let up := divisor < twice || twice == divisor && s.quotient % 2 == 1
  shorten? { s with quotient := if up then s.quotient + 1 else s.quotient } true

/-- Goes on with a division until nothing is left or there is no room, in at most `fuel` rounds. Every
round adds a digit, and there are never more than 56. -/
def run? (divisor : Nat) : Nat → Division → Option Division
  | 0, s => some s
  | fuel + 1, s =>
    if s.remainder = 0 then
      if 0 ≤ s.scale then some s
      else
        let next := s.extend divisor (min 9 (-s.scale).toNat)
        if next.quotient < limit then run? divisor fuel next else none
    else if s.room < 9 && s.scale + s.room < 0 then none
    else if s.room = 0 then s.round? divisor
    else
      let next := s.extend divisor s.room
      if next.quotient < limit then run? divisor fuel next
      else next.shorten? (next.remainder != 0)

/-- The numbers of trailing zeros that are taken off together, in this order, each with a modulus that
the coefficient has to be a multiple of. -/
def trimSteps : List (Nat × Nat) :=
  [(8, Nat.pow 2 32), (8, Nat.pow 2 32), (8, Nat.pow 2 32), (4, 1), (2, 1), (1, 1)]

/-- Takes trailing zeros off a coefficient with a scale. -/
def trim (coefficient scale : Nat) : Nat × Nat :=
  trimSteps.foldl (fun (c, s) (digits, modulus) =>
    if digits ≤ s && c % modulus == 0 && c % Nat.pow 10 digits == 0 then (c / Nat.pow 10 digits, s - digits)
    else (c, s)) (coefficient, scale)

end Division

/-- The quotient by a divisor that is not zero. -/
def div? (a b : Decimal) : Option Decimal :=
  if a.isZero then some zero
  else do
    let start : Division :=
      ⟨a.coefficient / b.coefficient, a.coefficient % b.coefficient, (a.scale : Int) - b.scale⟩
    let s ← start.run? b.coefficient 64
    let (coefficient, scale) :=
      if start.remainder = 0 then (s.quotient, s.scale.toNat)
      else Division.trim s.quotient s.scale.toNat
    make? (a.negative != b.negative) coefficient scale

/-! ## Remainders -/

/-- The remainder after a word of 32 bits has been brought down to one of 96 bits, where the divisor has
its leading bit set. If the leading word of the dividend is that of the divisor, it is dropped. -/
def wordStep (divisor remainder word : Nat) : Nat :=
  let dividend := remainder * Nat.pow 2 32 + word
  if dividend / Nat.pow 2 96 = divisor / Nat.pow 2 64 then dividend % Nat.pow 2 96 % divisor else dividend % divisor

/-- The remainder of a dividend of at most seven words by a divisor of three words. -/
def wordRemainder (dividend divisor : Nat) : Nat :=
  let shift := 95 - divisor.log2
  let words := [6, 5, 4, 3, 2, 1, 0].map fun k => dividend * Nat.pow 2 shift / Nat.pow 2 (32 * k) % Nat.pow 2 32
  words.foldl (wordStep (divisor * Nat.pow 2 shift)) 0 / Nat.pow 2 shift

/-- The remainder of the division that rounds toward zero, by a divisor that is not zero; it has the
sign of the dividend. -/
def rem? (a b : Decimal) : Option Decimal :=
  let scale := max a.scale b.scale
  let dividend := a.coefficient * Nat.pow 10 (scale - a.scale)
  let divisor := b.coefficient * Nat.pow 10 (scale - b.scale)
  if a.isZero || dividend = divisor then some zero
  else if dividend < divisor then make? a.negative a.coefficient a.scale
  else
    make? a.negative
      (if divisor < Nat.pow 2 64 then dividend % divisor else wordRemainder dividend divisor) scale

end Parlance.Decimal
