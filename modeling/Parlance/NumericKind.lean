/-!
# Kinds of numbers

The twelve representations of numbers and the lattice of implicit widenings between them.
`NumericKind.common?` is the first kind that both of two kinds widen to. Whole numbers of an integral
kind lie in an interval, from which characters leave out the surrogates: `NumericKind.Holds`.
-/

namespace Parlance

/-- A representation of numbers. -/
inductive NumericKind where
  | sbyte | byte | short | ushort | int | uint | long | ulong | char | float | double | decimal
  deriving DecidableEq, Repr, Inhabited

namespace NumericKind

/-- All kinds. -/
def all : List NumericKind :=
  [sbyte, byte, short, ushort, int, uint, long, ulong, char, float, double, decimal]

/-- The name of a kind in type names and messages. -/
def name : NumericKind → String
  | sbyte => "sbyte"
  | byte => "byte"
  | short => "short"
  | ushort => "ushort"
  | int => "int"
  | uint => "uint"
  | long => "long"
  | ulong => "ulong"
  | char => "char"
  | float => "float"
  | double => "double"
  | decimal => "decimal"

/-- The kind with a name. -/
def ofName? (text : String) : Option NumericKind :=
  all.find? (·.name == text)

/-! ## Widening -/

/-- The kinds that a kind may widen to, itself first; all lists are in one common order. -/
def widenings : NumericKind → List NumericKind
  | sbyte => [sbyte, short, int, long, float, double, decimal]
  | byte => [byte, short, ushort, int, uint, long, ulong, float, double, decimal]
  | short => [short, int, long, float, double, decimal]
  | ushort => [ushort, int, uint, long, ulong, float, double, decimal]
  | int => [int, long, float, double, decimal]
  | uint => [uint, long, ulong, float, double, decimal]
  | long => [long, float, double, decimal]
  | ulong => [ulong, float, double, decimal]
  | char => [char, ushort, int, uint, long, ulong, float, double, decimal]
  | float => [float, double, decimal]
  | double => [double, decimal]
  | decimal => [decimal]

/-- Whether a kind may widen to another one. -/
def canWidenTo (k target : NumericKind) : Bool :=
  k.widenings.contains target

/-- The first kind that both kinds may widen to. -/
def common? (a b : NumericKind) : Option NumericKind :=
  if a = b then some a else a.widenings.find? b.widenings.contains

/-! ## Classes of kinds -/

/-- Kinds of whole numbers. -/
def isIntegral (k : NumericKind) : Bool :=
  k matches sbyte | byte | short | ushort | int | uint | long | ulong | char

/-- Integral kinds that may stand behind an enum; characters may not. -/
def isEnumCompatible (k : NumericKind) : Bool :=
  k matches sbyte | byte | short | ushort | int | uint | long | ulong

/-- Kinds without negative numbers. -/
def isUnsigned (k : NumericKind) : Bool :=
  k matches byte | ushort | uint | ulong | char

/-- Kinds with arithmetic; characters have none. -/
def isArithmetic (k : NumericKind) : Bool :=
  k != char

/-! ## Ranges -/

/-- The least and the greatest number of an integral kind. -/
def bounds? : NumericKind → Option (Int × Int)
  | sbyte => some (-0x80, 0x7f)
  | byte => some (0, 0xff)
  | short => some (-0x8000, 0x7fff)
  | ushort => some (0, 0xffff)
  | int => some (-0x80000000, 0x7fffffff)
  | uint => some (0, 0xffffffff)
  | long => some (-0x8000000000000000, 0x7fffffffffffffff)
  | ulong => some (0, 0xffffffffffffffff)
  | char => some (0, 0x10ffff)
  | float | double | decimal => none

/-- Whether a whole number belongs to an integral kind. -/
def holds (k : NumericKind) (n : Int) : Bool :=
  match k.bounds? with
  | some (lo, hi) => lo ≤ n && n ≤ hi && !(k = char && 0xd800 ≤ n && n < 0xe000)
  | none => false

/-- The whole number belongs to the integral kind. -/
abbrev Holds (k : NumericKind) (n : Int) : Prop := k.holds n = true

end NumericKind

end Parlance
