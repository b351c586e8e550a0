import Parlance.Text.Age
import Parlance.Text.CaseFold
import Parlance.Text.Property

/-!
# Sets of characters

A `CharSet` is what a single place of a pattern accepts. Sets are built from intervals, general
categories and a few named classes by the Boolean operations; `CharSet.folded` adds everything that
differs from a member only in case. `CharSet.contains` is what a set means, `CharSet.intervals` its
canonical form.
-/

namespace Parlance.Pattern

open Parlance.Text

/-- The general category of a character among those that patterns know. -/
def categoryOf (c : Char) : Category := if isYoung c then .unassigned else Category.of c

/-- The categories of word characters: letters, marks, decimal digits, letter numbers, connectors. -/
def wordCategories : List Category :=
  Category.letters ++ Category.marks ++ [.decimalNumber, .letterNumber, .connectorPunctuation]

/-- Further word characters: joiners and letter-like symbols. -/
def otherWordPoints : Intervals :=
  [(0x200c, 0x200d), (0x24b6, 0x24e9), (0x1f130, 0x1f149), (0x1f150, 0x1f169), (0x1f170, 0x1f189)]

/-- Decimal digits of any script. -/
def isDecimalDigit (c : Char) : Bool :=
  if c.toNat < 128 then c.isDigit else categoryOf c = .decimalNumber

/-- Word characters of any script. -/
def isWord (c : Char) : Bool :=
  if c.toNat < 128 then c.isAlphanum || c == '_'
  else categoryOf c ∈ wordCategories || otherWordPoints.contains c.toNat

/-- ASCII letters, digits and the underscore. -/
def isAsciiWord (c : Char) : Bool := c.isAlphanum || c == '_'

/-- The code points of the characters in some categories. -/
def categoryIntervals (cs : List Category) : Intervals :=
  let members := Intervals.join (Category.table.intervals Intervals.lastPoint cs.contains)
  let young := Intervals.join (Version.table.intervals Intervals.lastPoint fun v =>
    v.any fun v => !v.upTo .ofPatterns)
  if cs.contains .unassigned then Intervals.union members young
  else Intervals.difference members young

/-- A set of characters. -/
inductive CharSet where
  | nothing
  | interval (lo hi : Char)
  | ranges (points : Intervals)
  | categories (cs : List Category)
  | digit
  | blank
  | word
  | union (a b : CharSet)
  | intersection (a b : CharSet)
  | difference (a b : CharSet)
  | symmetricDifference (a b : CharSet)
  | complement (a : CharSet)
  | folded (a : CharSet)
  | asciiFolded (a : CharSet)
  deriving DecidableEq, Repr

namespace CharSet

/-- A character and, if it is an ASCII letter, the same letter in the other case. -/
def asciiOrbit (c : Char) : List Char := [c, c.toLower, c.toUpper]

/-- Membership. -/
def contains : CharSet → Char → Bool
  | nothing, _ => false
  | interval lo hi, c => lo ≤ c && c ≤ hi
  | ranges points, c => points.contains c.toNat
  | categories cs, c => cs.contains (categoryOf c)
  | digit, c => isDecimalDigit c
  | blank, c => isBlank c
  | word, c => isWord c
  | union a b, c => a.contains c || b.contains c
  | intersection a b, c => a.contains c && b.contains c
  | difference a b, c => a.contains c && !b.contains c
  | symmetricDifference a b, c => a.contains c != b.contains c
  | complement a, c => !a.contains c
  | folded a, c => (foldOrbit c).any a.contains
  | asciiFolded a, c => (asciiOrbit c).any a.contains

/-- The set of one character. -/
def single (c : Char) : CharSet := interval c c

/-- The set of all characters. -/
def everything : CharSet := complement nothing

/-- The union of intervals. -/
def ofIntervals (intervals : List (Char × Char)) : CharSet :=
  intervals.foldr (fun (lo, hi) s => union (interval lo hi) s) nothing

/-- The union of sets. -/
def unionOf (sets : List CharSet) : CharSet := sets.foldr union nothing

/-- The complement if asked for. -/
def negatedIf (negated : Bool) (s : CharSet) : CharSet := if negated then complement s else s

/-! ## Canonical form -/

/-- The code points that differ from a member at most in case, by the pairs of a code point and the
one that it folds to. -/
def foldIntervals (pairs : List (Nat × Nat)) (points : Intervals) : Intervals :=
  let folds := pairs.filter fun (point, image) => points.contains point || points.contains image
  let images := Intervals.ofUnsorted (folds.map fun (_, image) => (image, image))
  let orbits := pairs.filter fun (_, image) => images.contains image
  Intervals.ofUnsorted (points ++ images ++ orbits.map fun (point, _) => (point, point))

/-- The pairs of an upper-case and a lower-case ASCII letter. -/
def asciiPairs : List (Nat × Nat) := (List.range 26).map fun n => ('A'.toNat + n, 'a'.toNat + n)

/-- The code points of a set, surrogates possibly among them. -/
def points : CharSet → Intervals
  | nothing => []
  | interval lo hi => if lo ≤ hi then [(lo.toNat, hi.toNat)] else []
  | ranges points => Intervals.ofUnsorted points
  | categories cs => categoryIntervals cs
  | digit => categoryIntervals [.decimalNumber]
  | blank => blanks
  | word => Intervals.union (categoryIntervals wordCategories) otherWordPoints
  | union a b => Intervals.union a.points b.points
  | intersection a b => Intervals.intersection a.points b.points
  | difference a b => Intervals.difference a.points b.points
  | symmetricDifference a b =>
    Intervals.union (Intervals.difference a.points b.points)
      (Intervals.difference b.points a.points)
  | complement a => Intervals.complement a.points
  | folded a => foldIntervals (foldShifts.flatMap CaseShift.pairs) a.points
  | asciiFolded a => foldIntervals asciiPairs a.points

/-- The code points of a set in ascending intervals; two sets with the same members have the same. -/
def intervals (s : CharSet) : Intervals := Intervals.difference s.points Intervals.surrogates

/-- Whether two sets have the same members. -/
def same (a b : CharSet) : Bool := a = b || a.intervals == b.intervals

/-- The only member of a set. -/
def sole? : CharSet → Option Char
  | interval lo hi => if lo = hi then some lo else none
  | s =>
    match s.intervals with
    | [(lo, hi)] => if lo = hi then some (Char.ofNat lo) else none
    | _ => none

/-! ## Named sets -/

/-- The classes of ASCII characters by name. -/
def ascii? : String → Option CharSet
  | "alnum" => some (ofIntervals [('0', '9'), ('A', 'Z'), ('a', 'z')])
  | "alpha" => some (ofIntervals [('A', 'Z'), ('a', 'z')])
  | "ascii" => some (ofIntervals [('\x00', '\x7f')])
  | "blank" => some (ofIntervals [('\t', '\t'), (' ', ' ')])
  | "cntrl" => some (ofIntervals [('\x00', '\x1f'), ('\x7f', '\x7f')])
  | "digit" => some (ofIntervals [('0', '9')])
  | "graph" => some (ofIntervals [('!', '~')])
  | "lower" => some (ofIntervals [('a', 'z')])
  | "print" => some (ofIntervals [(' ', '~')])
  | "punct" => some (ofIntervals [('!', '/'), (':', '@'), ('[', '\x60'), ('\x7b', '~')])
  | "space" => some (ofIntervals [('\t', '\r'), (' ', ' ')])
  | "upper" => some (ofIntervals [('A', 'Z')])
  | "word" => some (ofIntervals [('0', '9'), ('A', 'Z'), ('_', '_'), ('a', 'z')])
  | "xdigit" => some (ofIntervals [('0', '9'), ('A', 'F'), ('a', 'f')])
  | _ => none

end CharSet

end Parlance.Pattern
