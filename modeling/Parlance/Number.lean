import Parlance.Binary.Remainder
import Parlance.Binary.Text
import Parlance.Decimal.Binary
import Parlance.Decimal.Text
import Parlance.NumericKind
import Parlance.Text.Quoted

/-!
# Numbers

A number is a whole number of an integral kind, a single, a double or a decimal. `convert?` moves a
number to another kind, exactly between kinds that are not floating; whole parts are taken toward zero
and a number that does not fit has no image. `compare?` orders numbers of any kinds: exactly between
whole numbers and decimals, else as doubles.
-/

namespace Parlance

/-- A number of some kind. -/
inductive Number where
  | integral (kind : NumericKind) (value : Int) (holds : kind.Holds value)
  | float (x : Float32)
  | double (x : Float)
  | decimal (d : Decimal)
  deriving DecidableEq

namespace Number

/-- The kind of a number. -/
def kind : Number → NumericKind
  | integral k _ _ => k
  | float _ => .float
  | double _ => .double
  | decimal _ => .decimal

/-- The whole number of an integral kind, if that holds it. -/
def ofInt? (kind : NumericKind) (n : Int) : Option Number :=
  if h : kind.Holds n then some (integral kind n h) else none

/-- Zero in a kind. -/
def zeroOf : NumericKind → Number
  | .float => float 0.0
  | .double => double 0.0
  | .decimal => decimal .zero
  | .sbyte => integral .sbyte 0 (by decide)
  | .byte => integral .byte 0 (by decide)
  | .short => integral .short 0 (by decide)
  | .ushort => integral .ushort 0 (by decide)
  | .int => integral .int 0 (by decide)
  | .uint => integral .uint 0 (by decide)
  | .long => integral .long 0 (by decide)
  | .ulong => integral .ulong 0 (by decide)
  | .char => integral .char 0 (by decide)

/-- The value of a number of an integral kind. -/
def toInt? : Number → Option Int
  | integral _ n _ => some n
  | _ => none

/-- The nearest double. -/
def toDouble : Number → Float
  | integral _ n _ => Float.ofInt n
  | float x => x.toFloat
  | double x => x
  | decimal d => d.toDouble

/-! ## Conversion -/

/-- The magnitude from which on a double has no whole part to convert. -/
def wholeLimit : Float := 1e38

/-- The number cut to a whole one; none for floating-point numbers that are too large or not finite. -/
def truncate? : Number → Option Int
  | integral _ n _ => some n
  | float x => ofDouble? x.toFloat
  | double x => ofDouble? x
  | decimal d => some d.truncate
where
  /-- The whole part of a double below the limit. -/
  ofDouble? (x : Float) : Option Int :=
    if x.abs < wholeLimit then Binary.truncate? x else none

/-- The decimal that a number stands for. -/
def toDecimal? : Number → Option Decimal
  | integral _ n _ => Decimal.ofInt? n
  | float x => Decimal.ofDouble? x.toFloat
  | double x => Decimal.ofDouble? x
  | decimal d => some d

/-- The nearest single. -/
def toSingle : Number → Float32
  | integral _ n _ => Float32.ofInt n
  | float x => x
  | double x => x.toFloat32
  | decimal d => d.toDouble.toFloat32

/-- The number in another kind, if it fits. -/
def convert? (n : Number) (kind : NumericKind) : Option Number :=
  if n.kind = kind then some n
  else
    match kind with
    | .float => some (float n.toSingle)
    | .double => some (double n.toDouble)
    | .decimal => n.toDecimal?.map decimal
    | _ => n.truncate?.bind (ofInt? kind)

/-! ## Order and equality -/

/-- The order of two doubles; NaN has none. -/
def compareDoubles? (x y : Float) : Option Ordering :=
  if x < y then some .lt else if x == y then some .eq else if y < x then some .gt else none

/-- The order of two numbers by value. -/
def compare? : Number → Number → Option Ordering
  | integral _ a _, integral _ b _ => some (compare a b)
  | decimal a, decimal b => some (a.compare b)
  | decimal a, integral _ b _ => (Decimal.ofInt? b).map (a.compare ·)
  | integral _ a _, decimal b => (Decimal.ofInt? a).map (Decimal.compare · b)
  | a, b => compareDoubles? a.toDouble b.toDouble

/-- Equality of numbers of one kind: of whole numbers, of floating-point numbers, of decimal values.
Numbers of different kinds are unequal. -/
def same : Number → Number → Bool
  | integral k a _, integral l b _ => k = l && a == b
  | float a, float b => a == b
  | double a, double b => a == b
  | decimal a, decimal b => a.compare b == .eq
  | _, _ => false

/-! ## Text -/

/-- The text of a number; a character is quoted. -/
def print : Number → String
  | integral .char n _ => Text.quotedChar (Char.ofNat n.toNat)
  | integral _ n _ => toString n
  | float x => (Binary.Parts.ofSingle x).print
  | double x => (Binary.Parts.ofDouble x).print
  | decimal d => d.print

/-- Reads a whole number with an optional sign, of which unsigned kinds take only the plus. -/
def parseWhole? (kind : NumericKind) (cs : List Char) : Option Number :=
  let (negative, digits) := match cs with
    | '-' :: rest => (!kind.isUnsigned, if kind.isUnsigned then cs else rest)
    | '+' :: rest => (false, rest)
    | rest => (false, rest)
  if digits.isEmpty || !digits.all Char.isDigit then none
  else
    let n : Int := Text.decimalValue digits
    ofInt? kind (if negative then -n else n)

/-- Reads a literal of a kind; a character is a text of one character. -/
def parse? (text : String) : NumericKind → Option Number
  | .float => (Binary.parseSingle? text).map float
  | .double => (Binary.parseDouble? text).map double
  | .decimal => (Decimal.parse? text).map decimal
  | .char => match text.toList with
    | [c] => ofInt? .char c.toNat
    | _ => none
  | kind => parseWhole? kind text.toList

end Number

end Parlance
