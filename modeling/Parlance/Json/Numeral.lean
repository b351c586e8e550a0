import Parlance.Json.Basic

/-!
# JSON numerals

A numeral without a point and an exponent that fits 64 bits, signed or not, is an integer; every other
one is a double. Its digits are collected as long as they fit an unsigned 64-bit number: later digits
before the point only count, later digits after it are dropped. The collected number is then scaled by
a power of ten in double arithmetic, so that the last binary place may be off.
-/

namespace Parlance.Json

/-- The largest collected number. -/
def significandMax : Nat := Nat.pow 2 64 - 1

/-- The collected digits: the value is `digits * 10 ^ power`. -/
structure Significand where
  digits : Nat
  power : Int
  deriving DecidableEq, Repr

/-- Adds a digit before the point, which only counts after one that had no room. -/
def Significand.addWhole (s : Significand) (digit : Nat) : Significand :=
  if s.power = 0 && s.digits * 10 + digit ≤ significandMax then ⟨s.digits * 10 + digit, 0⟩
  else ⟨s.digits, s.power + 1⟩

/-- Adds the digits after the point up to the first one that has no room. -/
def Significand.addFraction (s : Significand) : List Nat → Significand
  | [] => s
  | digit :: rest =>
    if s.digits * 10 + digit ≤ significandMax then
      addFraction ⟨s.digits * 10 + digit, s.power - 1⟩ rest
    else s

/-- A power of ten as a double. -/
def powerOfTen (n : Nat) : Float := Float.ofScientific 1 false n

/-- The largest power of ten that is a finite double. -/
def topPower : Nat := 308

/-- Divides by a power of ten, in steps while it is too large for a double. -/
def divideByPower (x : Float) (n : Nat) : Float :=
  if n ≤ topPower then x / powerOfTen n
  else if x == 0.0 then x
  else divideByPower (x / powerOfTen topPower) (n - topPower)
termination_by n
decreasing_by simp only [topPower] at *; omega

/-- The double of a magnitude; none if it is infinite. -/
def Significand.toDouble? (s : Significand) : Option Float :=
  let x := Float.ofNat s.digits
  if s.power < 0 then some (divideByPower x s.power.natAbs)
  else if topPower < s.power.natAbs then (if s.digits = 0 then some x else none)
  else
    let scaled := x * powerOfTen s.power.natAbs
    if scaled.isInf then none else some scaled

/-- The decimal digits at the front, as numbers. -/
def takeDigits (cs : List Char) : List Nat × List Char :=
  ((cs.takeWhile Char.isDigit).map Text.digitValue, cs.dropWhile Char.isDigit)

/-- The exponent of a double that a numeral may name before it counts as out of reach. -/
def exponentMax : Int := Nat.pow 2 31 - 1

/-- The magnitude with an exponent of its own; one beyond reach makes it zero, or infinite unless it
is zero. -/
def Significand.withExponent? (s : Significand) (negative : Bool) (exponent : Nat) : Option Float :=
  if exponentMax < exponent then
    if negative || s.digits = 0 then some 0.0 else none
  else
    (Significand.mk s.digits (if negative then s.power - exponent else s.power + exponent)).toDouble?

/-- Reads an exponent after its mark, as a sign and a magnitude. -/
def takeExponent? (cs : List Char) : Option ((Bool × Nat) × List Char) :=
  let (negative, rest) := match cs with
    | '-' :: rest => (true, rest)
    | '+' :: rest => (false, rest)
    | rest => (false, rest)
  let (digits, rest) := takeDigits rest
  if digits.isEmpty then none
  else some ((negative, digits.foldl (fun n d => n * 10 + d) 0), rest)

/-- The number without point or exponent: an integer if it fits 64 bits. -/
def ofWhole? (negative : Bool) (s : Significand) : Option Json :=
  if s.power = 0 && (!negative || s.digits ≠ 0 && s.digits ≤ Nat.pow 2 63) then
    some (.integer (if negative then -(s.digits : Int) else s.digits))
  else s.toDouble?.map fun x => .double (if negative then -x else x)

/-- Reads an unsigned numeral. -/
def takeMagnitude? (negative : Bool) (cs : List Char) : Option (Json × List Char) := do
  let (whole, rest) := takeDigits cs
  if whole.isEmpty || 1 < whole.length && whole.head? = some 0 then none
  else
    let s := whole.foldl Significand.addWhole ⟨0, 0⟩
    let (s, pointed, rest) ← match rest with
      | '.' :: rest =>
        let (fraction, rest) := takeDigits rest
        if fraction.isEmpty then none else some (s.addFraction fraction, true, rest)
      | rest => some (s, false, rest)
    let signed := fun x : Float => Json.double (if negative then -x else x)
    match rest with
    | c :: after =>
      if c = 'e' || c = 'E' then
        let ((down, exponent), rest) ← takeExponent? after
        (s.withExponent? down exponent).map fun x => (signed x, rest)
      else if pointed then s.toDouble?.map fun x => (signed x, rest)
      else (ofWhole? negative s).map (·, rest)
    | [] =>
      if pointed then s.toDouble?.map fun x => (signed x, rest)
      else (ofWhole? negative s).map (·, rest)

/-- Reads a numeral. -/
def takeNumeral? : List Char → Option (Json × List Char)
  | '-' :: rest => takeMagnitude? true rest
  | cs => takeMagnitude? false cs

end Parlance.Json
