import Parlance.Pattern.Basic

/-!
# Places in a text

A `Cursor` is a place in a text with what stands around it, so that conditions on places need nothing
else.
-/

namespace Parlance.Pattern

/-- A place in a text: its byte offset, the character before it and what follows. -/
structure Cursor where
  offset : Nat
  previous : Option Char
  rest : List Char
  remaining : Nat
  remaining_eq : remaining = rest.length

namespace Cursor

/-- The start of a text. -/
def start (text : String) : Cursor := ⟨0, none, text.toList, text.toList.length, rfl⟩

/-- The place after the next character. -/
def next? (c : Cursor) : Option (Char × Cursor) :=
  match h : c.rest with
  | [] => none
  | x :: rest => some (x, ⟨c.offset + x.utf8Size, some x, rest, c.remaining - 1, by
      rw [c.remaining_eq, h]; rfl⟩)

theorem next?_remaining {c d : Cursor} {x : Char} (h : c.next? = some (x, d)) :
    d.remaining < c.remaining := by
  have := c.remaining_eq
  unfold next? at h
  split at h
  · cases h
  · rename_i hr
    cases h
    rw [hr] at this
    simp only [List.length_cons] at this
    simp only
    omega

/-- The place after the next character if a set has it. -/
def pass? (set : CharSet) (c : Cursor) : Option Cursor :=
  match c.next? with
  | some (x, d) => if set.contains x then some d else none
  | none => none

end Cursor

/-! ## Conditions -/

/-- Whether a boundary is at a place between two characters of which each may belong to a word. -/
def Boundary.holds (before after : Bool) : Boundary → Bool
  | edge => before != after
  | inside => before == after
  | start => !before && after
  | stop => before && !after
  | startHalf => !before
  | stopHalf => !after

/-- Whether a condition holds at a place. -/
def Look.holds (l : Look) (c : Cursor) : Bool :=
  let next := c.rest.head?
  match l with
  | textStart => c.previous.isNone
  | textEnd => next.isNone
  | lineStart false => c.previous.all (· == '\n')
  | lineEnd false => next.all (· == '\n')
  | lineStart true =>
    c.previous.all (· == '\n') || c.previous == some '\r' && next != some '\n'
  | lineEnd true => next.all (· == '\r') || next == some '\n' && c.previous != some '\r'
  | word boundary ascii =>
    let isPart := if ascii then isAsciiWord else isWord
    boundary.holds (c.previous.any isPart) (next.any isPart)

/-! ## Sets of places -/

/-- A set of places, as the bits at the numbers of characters that remain after them. -/
abbrev Marks : Type := Nat

/-- Whether a place is in a set. -/
def Marks.has (m : Marks) (c : Cursor) : Bool := m.testBit c.remaining

/-- Adds a place to a set. -/
def Marks.add (m : Marks) (c : Cursor) : Marks := m ||| 1 <<< c.remaining

/-- Adds the places from one to a later one. -/
def Marks.addRun (m : Marks) (first last : Cursor) : Marks :=
  m ||| (1 <<< (first.remaining - last.remaining + 1) - 1) <<< last.remaining

/-- The places of a list that are not in a set, each of them once. -/
def newPlaces (m : Marks) : List Cursor → List Cursor
  | [] => []
  | c :: cs => if Marks.has m c then newPlaces m cs else c :: newPlaces (Marks.add m c) cs

/-- The places of a list without later repetitions. -/
def distinct (cs : List Cursor) : List Cursor := newPlaces 0 cs

end Parlance.Pattern
