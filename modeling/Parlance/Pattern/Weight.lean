import Parlance.Pattern.Basic

/-!
# The weight of a pattern

A pattern must not weigh more than `Pattern.weightMax`. Its weight is the size of two machines that read
a text byte by byte, one forwards and one backwards: the heavier one counts. A set of characters takes
a state for each of its byte sequences' bytes, shared as far as sequences end alike, or begin alike; a
repetition with counts takes as many copies of its body as its rounds.
-/

namespace Parlance.Pattern

open Parlance.Text

/-! ## Byte sequences -/

/-- A range of bytes at each position of an encoding. -/
abbrev ByteRanges : Type := List (Nat × Nat)

/-- The last code point with an encoding of some number of bytes. -/
def lastOfLength : Nat → Nat
  | 1 => 0x7f
  | 2 => 0x7ff
  | 3 => 0xffff
  | _ => 0x10ffff

/-- The bytes of the encoding of a code point. -/
def encode (point : Nat) : List Nat :=
  if point ≤ 0x7f then [point]
  else if point ≤ 0x7ff then [0xc0 + point / 64, 0x80 + point % 64]
  else if point ≤ 0xffff then [0xe0 + point / 4096, 0x80 + point / 64 % 64, 0x80 + point % 64]
  else [0xf0 + point / 262144, 0x80 + point / 4096 % 64, 0x80 + point / 64 % 64, 0x80 + point % 64]

/-- The two parts of an interval that does not stand for one range of bytes at each position: first it
is cut where the encodings get longer, then where the last bytes do not go from the first to the last
of theirs. -/
def cut? (lo hi : Nat) : Option ((Nat × Nat) × (Nat × Nat)) :=
  match [1, 2, 3].find? fun n => lo ≤ lastOfLength n && lastOfLength n < hi with
  | some n => some ((lo, lastOfLength n), (lastOfLength n + 1, hi))
  | none =>
    if hi ≤ 0x7f then none
    else
      [64, 4096, 262144].findSome? fun block =>
        if lo / block = hi / block then none
        else if lo % block != 0 then
          some ((lo, lo / block * block + block - 1), (lo / block * block + block, hi))
        else if hi % block != block - 1 then some ((lo, hi / block * block - 1), (hi / block * block, hi))
        else none

/-- The byte sequences of an interval in ascending order; `fuel` bounds the number of cuts. -/
def sequencesWithin (fuel : Nat) (lo hi : Nat) : List ByteRanges :=
  match fuel, cut? lo hi with
  | fuel + 1, some ((lo, mid), (mid', hi)) =>
    sequencesWithin fuel lo mid ++ sequencesWithin fuel mid' hi
  | _, _ => [(encode lo).zip (encode hi)]

/-- The byte sequences of intervals of characters. -/
def byteSequences (s : Intervals) : List ByteRanges :=
  s.flatMap fun (lo, hi) => sequencesWithin 16 lo hi

/-! ## The machine of a set -/

/-- The states that have been made: each is known by its transitions, which go from a range of bytes to
the number of a state. -/
abbrev States : Type := List (List ((Nat × Nat) × Nat))

/-- Makes a state unless there is one with the same transitions. -/
def States.intern (states : States) (transitions : List ((Nat × Nat) × Nat)) : Nat × States :=
  match states.idxOf? transitions with
  | some n => (states.length - n, states)
  | none => (states.length + 1, transitions :: states)

/-- The sequences of a list in runs that begin with the same range, without that range. -/
def byFirst : List ByteRanges → List ((Nat × Nat) × List ByteRanges)
  | [] => []
  | [] :: rest => byFirst rest
  | (r :: tail) :: rest =>
    match byFirst rest with
    | (r', tails) :: groups =>
      if r = r' then (r, tail :: tails) :: groups else (r, [tail]) :: (r', tails) :: groups
    | [] => [(r, [tail])]

/-- Makes the states for sequences of `depth` bytes at most; state 0 is the end. -/
def States.build (states : States) : Nat → List ByteRanges → Nat × States
  | 0, _ => (0, states)
  | depth + 1, sequences =>
    let groups := byFirst sequences
    if groups.isEmpty then (0, states)
    else
      let (transitions, states) := groups.foldl (fun (transitions, states) (r, tails) =>
        let (next, states) := States.build states depth tails
        (transitions ++ [(r, next)], states)) ([], states)
      states.intern transitions

/-- The bytes of a state. -/
def stateSize : Nat := 32

/-- The size of the forward machine of byte sequences. -/
def forwardSize (sequences : List ByteRanges) : Nat :=
  let (_, states) := States.build [] 4 sequences
  stateSize + states.foldl (fun size transitions => size + (stateSize + 8 * transitions.length)) 0

/-- The number of ways in which sequences begin. -/
def beginnings (depth : Nat) (sequences : List ByteRanges) : Nat :=
  match depth with
  | 0 => 0
  | depth + 1 => ((byFirst sequences).map fun (_, tails) => 1 + beginnings depth tails).sum

/-- The size of the backward machine of byte sequences. -/
def backwardSize (sequences : List ByteRanges) : Nat :=
  2 * stateSize + 4 * sequences.length + stateSize * beginnings 4 sequences

/-- The sizes of the two machines of a set. A single character is a sequence of bytes, and a set of ASCII
characters needs one state. -/
def CharSet.sizes (s : CharSet) : Nat × Nat :=
  match s.sole? with
  | some c => (stateSize * c.utf8Size, stateSize * c.utf8Size)
  | none =>
    let intervals := s.intervals
    if intervals.all (·.2 ≤ 0x7f) then
      (2 * stateSize + 8 * intervals.length, 2 * stateSize + 8 * intervals.length)
    else
      let sequences := byteSequences intervals
      (forwardSize sequences, backwardSize sequences)

/-- A size that neither machine of a set exceeds. -/
def CharSet.sizeBound : CharSet → Nat
  | nothing => 4096
  | interval _ _ => 4096
  | ranges points => 4096 * (points.length + 1)
  | categories _ => Nat.pow 2 21
  | digit => Nat.pow 2 16
  | blank => Nat.pow 2 16
  | word => Nat.pow 2 18
  | union a b => a.sizeBound + b.sizeBound
  | intersection a b => a.sizeBound + b.sizeBound
  | difference a b => a.sizeBound + b.sizeBound + 4096
  | symmetricDifference a b => 2 * (a.sizeBound + b.sizeBound + 4096)
  | complement a => a.sizeBound + 4096
  | folded (interval lo hi) => if lo = hi then Nat.pow 2 14 else Nat.pow 2 21
  | folded _ => Nat.pow 2 21
  | asciiFolded a => a.sizeBound + Nat.pow 2 16

/-! ## The weight -/

/-- The size of the machine of a pattern, given those of its sets and of a group's ends. -/
def size (ofSet : CharSet → Nat) (groupSize : Nat) : Pattern → Nat
  | empty => stateSize
  | one set => ofSet set
  | look _ => stateSize
  | seq first second => first.size ofSet groupSize + second.size ofSet groupSize
  | alt first second =>
    first.size ofSet groupSize + second.size ofSet groupSize +
      if second matches alt _ _ then 4 else 2 * stateSize + 8
  | group _ body => groupSize + body.size ofSet groupSize
  | times body least most _ =>
    let copy := body.size ofSet groupSize
    match most with
    | none =>
      if least = 0 then
        copy + if body.canBeEmpty then 3 * stateSize + 16 else stateSize + 8
      else least * copy + stateSize + 8
    | some most =>
      if most = least then least * copy
      else least * copy + (most - least) * (copy + stateSize + 8) + stateSize

/-- The greatest weight. -/
def weightMax : Nat := 10 * Nat.pow 2 20

/-- The size of what is around the machine of a pattern. -/
def frameSize : Nat := 6 * stateSize + 16

/-- The weight of a pattern; in the backward machine groups do not count. -/
def weight (p : Pattern) : Nat :=
  frameSize + max (p.size (fun s => s.sizes.1) (2 * stateSize)) (p.size (fun s => s.sizes.2) 0)

/-- A weight that a pattern does not exceed and that is found without looking into its sets. -/
def weightBound (p : Pattern) : Nat := frameSize + p.size CharSet.sizeBound (2 * stateSize)

/-- Whether a pattern does not weigh too much. -/
def fits (p : Pattern) : Bool := p.weightBound ≤ weightMax || p.weight ≤ weightMax

end Parlance.Pattern
