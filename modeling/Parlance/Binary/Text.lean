import Parlance.Binary.Shortest
import Parlance.Text.Digit

/-!
# Floating-point numerals

`print` writes the shortest digits that read back, always in positional form. `printJson?` writes them
with a point or an exponent, as JSON texts do, and has no text for infinities and NaN; `JsonLayout`
says from which to which size the positional form is used. `parse` reads both kinds of number by one
numeral grammar and rounds once, half to even.
-/

namespace Parlance.Binary

/-- A floating-point number taken apart. -/
inductive Parts where
  | nan
  | infinity (negative : Bool)
  | zero (negative : Bool)
  | finite (negative : Bool) (magnitude : Magnitude)
  deriving DecidableEq, Repr

open Float.Model in
/-- Takes an unpacked number apart; `hidden` is the least mantissa of a normal number and `least` the
exponent of the smallest numbers. -/
def Parts.ofUnpacked (hidden : Nat) (least : Int) : UnpackedFloat → Parts
  | .notANumber => .nan
  | .infinity sign => .infinity (sign == .negative)
  | .zero sign => .zero (sign == .negative)
  | .finite sign mantissa exponent _ =>
    .finite (sign == .negative) ⟨mantissa, exponent, mantissa == hidden && least < exponent⟩

/-- The parts of a double. -/
def Parts.ofDouble (x : Float) : Parts :=
  .ofUnpacked (Nat.pow 2 52) (-1074) x.toModel.unpack

/-- The parts of a single. -/
def Parts.ofSingle (x : Float32) : Parts :=
  .ofUnpacked (Nat.pow 2 23) (-149) x.toModel.unpack

/-! ## Writing -/

/-- The digits around a point: zeros fill the places between. -/
def Digits.positional (d : Digits) : List Char × List Char :=
  let digits := d.list
  let point := d.point
  if point ≤ 0 then (['0'], List.replicate (-point).toNat '0' ++ digits)
  else if digits.length ≤ point then
    (digits ++ List.replicate (point - digits.length).toNat '0', [])
  else (digits.take point.toNat, digits.drop point.toNat)

/-- The sign of a numeral. -/
def signChars (negative : Bool) : List Char := if negative then ['-'] else []

/-- The positional numeral with the fewest digits; of two equally near ones the one farther from zero. -/
def Parts.print : Parts → String
  | .nan => "NaN"
  | .infinity negative => String.ofList (signChars negative ++ ['i', 'n', 'f'])
  | .zero negative => String.ofList (signChars negative ++ ['0'])
  | .finite negative m =>
    let (whole, fraction) := (shortest .upper m).positional
    String.ofList (signChars negative ++ whole ++ if fraction.isEmpty then [] else '.' :: fraction)

/-- The positional form is used while the point is above `above` and at most `upTo` places in. -/
structure JsonLayout where
  above : Int
  upTo : Int
  deriving DecidableEq, Repr

/-- Doubles stay positional from 0.00001 up to sixteen digits before the point. -/
def JsonLayout.double : JsonLayout := ⟨-5, 16⟩

/-- Singles stay positional from 0.000001 up to thirteen digits before the point. -/
def JsonLayout.single : JsonLayout := ⟨-6, 13⟩

/-- The digits with an exponent: one digit, the others after a point, a signed power of ten. -/
def Digits.scientific (d : Digits) : List Char :=
  let power := d.point - 1
  let exponent := signChars (power < 0) ++ (if power < 0 then [] else ['+']) ++
    Nat.toDigits 10 power.natAbs
  match d.list with
  | [] => []
  | [lead] => lead :: 'e' :: exponent
  | lead :: rest => lead :: '.' :: rest ++ 'e' :: exponent

/-- The JSON numeral, if the number has one; of two equally near ones the even one. -/
def Parts.printJson? (layout : JsonLayout) : Parts → Option String
  | .nan | .infinity _ => none
  | .zero negative => some (String.ofList (signChars negative ++ ['0', '.', '0']))
  | .finite negative m =>
    let d := shortest .even m
    let body :=
      if layout.above < d.point && d.point ≤ layout.upTo then
        let (whole, fraction) := d.positional
        whole ++ '.' :: if fraction.isEmpty then ['0'] else fraction
      else d.scientific
    some (String.ofList (signChars negative ++ body))

/-! ## Reading -/

/-- A numeral as read: the value is `coefficient * 10 ^ exponent`. -/
inductive Numeral where
  | nan
  | infinity
  | number (coefficient : Nat) (exponent : Int)
  deriving DecidableEq, Repr

/-- Reads an exponent after its `e`: an optional sign and at least one digit, to the end. -/
def parseExponent? (cs : List Char) : Option Int :=
  let (negative, digits) := match cs with
    | '-' :: rest => (true, rest)
    | '+' :: rest => (false, rest)
    | rest => (false, rest)
  if digits.isEmpty || !digits.all Char.isDigit then none
  else some (if negative then -(Text.decimalValue digits : Int) else Text.decimalValue digits)

/-- Reads an unsigned numeral: digits with an optional point, at least one of them, and an optional
exponent; or the name of infinity or NaN in any case. -/
def parseUnsigned? (cs : List Char) : Option Numeral :=
  let name := cs.map Char.toLower
  if name = "inf".toList || name = "infinity".toList then some .infinity
  else if name = "nan".toList then some .nan
  else
    let whole := cs.takeWhile Char.isDigit
    let rest := cs.dropWhile Char.isDigit
    let (fraction, rest) := match rest with
      | '.' :: rest => (rest.takeWhile Char.isDigit, rest.dropWhile Char.isDigit)
      | rest => ([], rest)
    if whole.isEmpty && fraction.isEmpty then none
    else
      let coefficient := Text.decimalValue (whole ++ fraction)
      match rest with
      | [] => some (.number coefficient (-(fraction.length : Int)))
      | c :: rest =>
        if c = 'e' || c = 'E' then
          (parseExponent? rest).map fun e => .number coefficient (e - fraction.length)
        else none

/-- Reads a numeral with an optional sign: whether it is negative, and what follows the sign. -/
def parseSigned? (text : String) : Option (Bool × Numeral) :=
  match text.toList with
  | '-' :: rest => (parseUnsigned? rest).map (true, ·)
  | '+' :: rest => (parseUnsigned? rest).map (false, ·)
  | cs => (parseUnsigned? cs).map (false, ·)

/-- The exponent that matters: beyond a thousand places past the digits every number is zero or
infinite. -/
def clampExponent (coefficient : Nat) (exponent : Int) : Int :=
  let reach : Int := (Nat.toDigits 10 coefficient).length + 1000
  max (-reach) (min 1000 exponent)

/-- Reads a double. -/
def parseDouble? (text : String) : Option Float :=
  (parseSigned? text).map fun (negative, numeral) =>
    let x := match numeral with
      | .nan => 0.0 / 0.0
      | .infinity => 1.0 / 0.0
      | .number coefficient exponent =>
        let exponent := clampExponent coefficient exponent
        Float.ofScientific coefficient (exponent < 0) exponent.natAbs
    if negative then -x else x

/-- Reads a single. -/
def parseSingle? (text : String) : Option Float32 :=
  (parseSigned? text).map fun (negative, numeral) =>
    let x := match numeral with
      | .nan => 0.0 / 0.0
      | .infinity => 1.0 / 0.0
      | .number coefficient exponent =>
        let exponent := clampExponent coefficient exponent
        Float32.ofScientific coefficient (exponent < 0) exponent.natAbs
    if negative then -x else x

end Parlance.Binary
