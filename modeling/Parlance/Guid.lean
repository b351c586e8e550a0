import Parlance.Text.Digit
import Parlance.Text.Property

/-!
# Guids

A guid is a number of 128 bits. It is written as thirty-two lower-case hexadecimal digits in groups of
eight, four, four, four and twelve; it is read in that form with digits of either case, in braces or
after `urn:uuid:`, or as thirty-two digits without dashes.
-/

namespace Parlance

/-- A number of 128 bits. -/
structure Guid where
  bits : BitVec 128
  deriving DecidableEq, Repr

namespace Guid

/-- The sizes of the groups. -/
def groups : List Nat := [8, 4, 4, 4, 12]

/-- Reads thirty-two digits. -/
def ofDigits? (cs : List Char) : Option Guid :=
  if cs.length = 32 then (Text.hexValue? cs).map fun n => ⟨BitVec.ofNat 128 n⟩ else none

/-- Removes the dash after each group but the last. -/
def dropDashes? : List Nat → List Char → Option (List Char)
  | [], _ => none
  | [size], cs => if cs.length = size then some cs else none
  | size :: sizes, cs =>
    match cs.drop size with
    | '-' :: rest => (dropDashes? sizes rest).map (cs.take size ++ ·)
    | _ => none

/-- Reads the form with dashes. -/
def ofDashed? (cs : List Char) : Option Guid :=
  (dropDashes? groups cs).bind ofDigits?

/-- What stands before the dashed form in a uniform resource name. -/
def urnMark : List Char := ['u', 'r', 'n', ':', 'u', 'u', 'i', 'd', ':']

/-- Reads a guid in any of its forms; blanks around it are ignored. -/
def parse? (text : String) : Option Guid :=
  let cs := (Text.trim text).toList
  if cs.length = 32 then ofDigits? cs
  else if cs.length = 36 then ofDashed? cs
  else if cs.length = 38 then
    if cs.head? = some '\x7b' && cs.getLast? = some '\x7d' then ofDashed? (cs.drop 1).dropLast
    else none
  else if (cs.take urnMark.length).map Char.toLower = urnMark then
    ofDashed? (cs.drop urnMark.length)
  else none

/-- Inserts a dash after each group but the last. -/
def insertDashes : List Nat → List Char → List Char
  | [], cs => cs
  | [_], cs => cs
  | size :: sizes, cs => cs.take size ++ '-' :: insertDashes sizes (cs.drop size)

/-- The written form. -/
def print (g : Guid) : String :=
  String.ofList (insertDashes groups (Text.padded 16 32 g.bits.toNat))

end Guid

end Parlance
