/-!
# Extents

An extent is a half-open range of byte offsets. `Extent.cover` and `Extent.gap` combine two of them,
and the positional tests (`rightOf`, `leftOf`, `isBetween`) compare only ends with starts, so that
adjacent extents count as separate. `Extent.slice` is the text of an extent, measured in UTF-8.
-/

namespace Parlance

/-- The bytes from `start` up to but not including `stop`. -/
structure Extent where
  start : Nat
  stop : Nat
  deriving DecidableEq, Repr, Inhabited

namespace Extent

/-- The empty extent at an offset. -/
def point (offset : Nat) : Extent := ⟨offset, offset⟩

/-- The number of bytes. -/
def length (e : Extent) : Nat := e.stop - e.start

/-- Whether the extent holds no byte. -/
def isEmpty (e : Extent) : Bool := e.start == e.stop

/-- The least extent that covers both. -/
def cover (a b : Extent) : Extent := ⟨min a.start b.start, max a.stop b.stop⟩

/-- The least extent that covers `first` and all of `rest`. -/
def coverAll (first : Extent) (rest : List Extent) : Extent :=
  rest.foldl cover first

/-- What lies between the end of `a` and the start of `b`; empty at the end of `a` if they overlap. -/
def gap (a b : Extent) : Extent := ⟨a.stop, max b.start a.stop⟩

/-- `e` starts at or after the end of `other`. -/
def rightOf (e other : Extent) : Bool := other.stop ≤ e.start

/-- `e` ends at or before the start of `other`. -/
def leftOf (e other : Extent) : Bool := e.stop ≤ other.start

/-- `e` lies in the gap between `a` and `b`. -/
def isBetween (e a b : Extent) : Bool := a.stop ≤ e.start && e.stop ≤ b.start

/-- The two offsets, as `start..stop`. -/
def print (e : Extent) : String := s!"{e.start}..{e.stop}"

end Extent

/-! ## Offsets into a text -/

namespace Text

/-- The number of bytes that characters take in UTF-8. -/
def byteLength : List Char → Nat
  | [] => 0
  | c :: cs => c.utf8Size + byteLength cs

/-- Whether a byte offset falls between two characters, or at an end. -/
def isBoundary (cs : List Char) (offset : Nat) : Bool :=
  match cs with
  | [] => offset == 0
  | c :: rest => offset == 0 || c.utf8Size ≤ offset && isBoundary rest (offset - c.utf8Size)

/-- The characters that start before a byte offset. -/
def takeBytes (offset : Nat) : List Char → List Char
  | [] => []
  | c :: rest => if offset = 0 then [] else c :: takeBytes (offset - c.utf8Size) rest

/-- The characters that start at or after a byte offset. -/
def dropBytes (offset : Nat) : List Char → List Char
  | [] => []
  | c :: rest => if offset = 0 then c :: rest else dropBytes (offset - c.utf8Size) rest

end Text

/-- The text that an extent covers. -/
def Extent.slice (e : Extent) (text : String) : String :=
  String.ofList (Text.takeBytes e.length (Text.dropBytes e.start text.toList))

/-- The extent of a whole text. -/
def Extent.whole (text : String) : Extent := ⟨0, Text.byteLength text.toList⟩

/-- Both ends fall on character boundaries of the text, in order. -/
def Extent.Within (e : Extent) (text : String) : Prop :=
  e.start ≤ e.stop ∧ Text.isBoundary text.toList e.start = true ∧
    Text.isBoundary text.toList e.stop = true

instance (e : Extent) (text : String) : Decidable (e.Within text) :=
  inferInstanceAs (Decidable (_ ∧ _ ∧ _))

end Parlance
