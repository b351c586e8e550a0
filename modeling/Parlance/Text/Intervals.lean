import Parlance.Text.Digit

/-!
# Intervals of code points

A set of code points as a list of closed intervals. The operations on sets expect intervals that ascend
and neither touch nor overlap, which `ofUnsorted` sees to, and give such intervals.
-/

namespace Parlance.Text

/-- Closed intervals of code points. -/
abbrev Intervals : Type := List (Nat × Nat)

namespace Intervals

/-- The last code point. -/
def lastPoint : Nat := 0x10ffff

/-- Membership of a code point. -/
def contains (s : Intervals) (point : Nat) : Bool :=
  s.any fun (lo, hi) => lo ≤ point && point ≤ hi

/-- Reads a word as an interval: one hexadecimal number or two with a dash between them. -/
def ofWord? (word : List Char) : Option (Nat × Nat) := do
  let lo ← hexValue? (word.takeWhile (· != '-'))
  match word.dropWhile (· != '-') with
  | [] => some (lo, lo)
  | _ :: hi => some (lo, ← hexValue? hi)

/-- The intervals that lines of text write, with blanks between them. -/
def ofLines (lines : List String) : Intervals :=
  (lines.flatMap fun line => line.splitOn " ").filterMap fun word => ofWord? word.toList

/-! ## Operations on sets -/

/-- Joins intervals that touch or overlap; `lo` and `hi` bound the one that is being joined. -/
def joinFrom (lo hi : Nat) : Intervals → Intervals
  | [] => [(lo, hi)]
  | (lo', hi') :: rest =>
    if lo' ≤ hi + 1 then joinFrom lo (max hi hi') rest else (lo, hi) :: joinFrom lo' hi' rest

/-- Joins ascending intervals that touch or overlap. -/
def join : Intervals → Intervals
  | [] => []
  | (lo, hi) :: rest => joinFrom lo hi rest

/-- The set of intervals in any order. -/
def ofUnsorted (s : Intervals) : Intervals := join (s.mergeSort fun a b => a.1 ≤ b.1)

/-- The union of two sets. -/
def union (s t : Intervals) : Intervals := join (List.merge s t fun a b => a.1 ≤ b.1)

/-- The code points from `start` on that a set does not have. -/
def complementFrom (start : Nat) : Intervals → Intervals
  | [] => if start ≤ lastPoint then [(start, lastPoint)] else []
  | (lo, hi) :: rest =>
    if start < lo then (start, lo - 1) :: complementFrom (hi + 1) rest
    else complementFrom (hi + 1) rest

/-- The complement of a set. -/
def complement (s : Intervals) : Intervals := complementFrom 0 s

/-- The intersection of two sets. -/
def intersection (s t : Intervals) : Intervals :=
  complement (union (complement s) (complement t))

/-- The members of the first set that the second one does not have. -/
def difference (s t : Intervals) : Intervals := intersection s (complement t)

/-- The surrogates, which are code points but no characters. -/
def surrogates : Intervals := [(0xd800, 0xdfff)]

end Intervals

end Parlance.Text
