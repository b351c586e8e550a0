import Parlance.Decimal.Basic

/-!
# Decimal numerals

`print` writes the shortest positional form, without an exponent. `parsePlain?` reads an optional sign
and digits with at most one point; underscores may follow a digit. Digits that the bounds have no room
for are an error before the point; after it the first of them rounds, a half upwards, and the others do
not count. `parse?` reads such a numeral, or one with a power of ten of at most 28 in either direction;
what a negative power moves beyond the last place rounds, a half upwards.
-/

namespace Parlance.Decimal

/-- The digits of a coefficient with a point before the last `scale` of them. -/
def positional (coefficient scale : Nat) : List Char :=
  let digits := Nat.toDigits 10 coefficient
  if scale = 0 then digits
  else
    let padded := List.replicate (scale + 1 - digits.length) '0' ++ digits
    padded.take (padded.length - scale) ++ '.' :: padded.drop (padded.length - scale)

/-- The numeral of a number as it stands, trailing zeros included. -/
def printExact (d : Decimal) : String :=
  String.ofList ((if d.negative then ['-'] else []) ++ positional d.coefficient d.scale)

/-- The numeral of the value, without trailing zeros. -/
def print (d : Decimal) : String :=
  d.normalize.printExact

/-- The value of a decimal digit. -/
def digit? (c : Char) : Option Nat :=
  if c.isDigit then some (c.toNat - '0'.toNat) else none

/-- Whether only digits and underscores are left. -/
def isTail (cs : List Char) : Bool := cs.all fun c => c.isDigit || c == '_'

/-- Ends a numeral at the first digit without room, which rounds a half upwards; the digits after it do
not count. -/
def roundUp? (negative : Bool) (coefficient scale digit : Nat) (tail : List Char) : Option Decimal :=
  if !isTail tail then none
  else if digit < 5 then make? negative coefficient scale
  else if coefficient + 1 < limit then make? negative (coefficient + 1) scale
  else if scale = 0 then none
  else make? negative ((coefficient + 5) / 10) (scale - 1)

/-- Reads digits after the sign: `pointed` once the point has passed, `seen` once a digit has. -/
def parseDigits? (negative : Bool) (pointed seen : Bool) (coefficient scale : Nat) :
    List Char → Option Decimal
  | [] => if seen then make? negative coefficient scale else none
  | c :: rest =>
    match digit? c with
    | some d =>
      let next := coefficient * 10 + d
      if pointed && (maxScale ≤ scale || limit ≤ next) then roundUp? negative coefficient scale d rest
      else if limit ≤ next then none
      else parseDigits? negative pointed true next (if pointed then scale + 1 else scale) rest
    | none =>
      if c = '.' && !pointed then parseDigits? negative true seen coefficient scale rest
      else if c = '_' && seen then parseDigits? negative pointed seen coefficient scale rest
      else none

/-- Reads a numeral without an exponent. -/
def parsePlain? (cs : List Char) : Option Decimal :=
  match cs with
  | '-' :: rest => parseDigits? true false false 0 0 rest
  | '+' :: rest => parseDigits? false false false 0 0 rest
  | cs => parseDigits? false false false 0 0 cs

/-- Reads the magnitude of an exponent: an optional plus sign and digits. -/
def parseExponent? (cs : List Char) : Option Nat :=
  let digits := match cs with
    | '+' :: rest => rest
    | rest => rest
  if digits.isEmpty then none
  else digits.foldlM (fun n c => (digit? c).map (n * 10 + ·)) 0

/-- Multiplies by a power of ten: the scale gives way first, then the coefficient grows. -/
def shiftUp? (d : Decimal) (power : Nat) : Option Decimal :=
  if power ≤ d.scale then make? d.negative d.coefficient (d.scale - power)
  else if maxScale < power then none
  else if d.isZero then some zero
  else (fit? d.negative (d.coefficient * Nat.pow 10 power) (Nat.pow 10 d.scale) d.scale).map strip

/-- Divides by a power of ten: the scale grows as far as it can, then the coefficient gives way. -/
def shiftDown? (d : Decimal) (power : Nat) : Option Decimal :=
  if maxScale < power then none
  else
    let lost := d.scale + power - maxScale
    ofParts? d.negative (roundHalfUp d.coefficient (Nat.pow 10 lost)) (d.scale + power - lost)

/-- Reads a numeral with an exponent after the first `e`. -/
def parseScaled? (cs : List Char) : Option Decimal :=
  let isMark := fun c => c == 'e' || c == 'E'
  let base := cs.takeWhile (!isMark ·)
  match cs.drop base.length with
  | [] => none
  | _ :: '-' :: exponent => do
    let d ← parsePlain? base
    d.shiftDown? (← parseExponent? exponent)
  | _ :: exponent => do
    let d ← parsePlain? base
    d.shiftUp? (← parseExponent? exponent)

/-- Reads a decimal numeral. -/
def parse? (text : String) : Option Decimal :=
  (parsePlain? text.toList).orElse fun _ => parseScaled? text.toList

end Parlance.Decimal
