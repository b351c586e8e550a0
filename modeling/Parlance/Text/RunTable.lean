/-!
# Tables of runs

A table gives every code point a value. It is written as run lengths, from code point 0 upwards: digits
say how many code points a run has, the letters after them name the value of the run. So the runs cover
the code space up to the end of the last one, and no two of them overlap.
-/

namespace Parlance.Text

/-- The first code point of each run with the value of the run, in ascending order. -/
abbrev RunTable (α : Type) : Type := Array (Nat × α)

namespace RunTable

variable {α : Type}

/-- Reads runs from `start` on; `length` and `code` are what has been read of the first one, its letters
in reverse order. -/
def decode (value : String → α) (start length : Nat) (code : List Char) :
    List Char → List (Nat × α)
  | [] => if code.isEmpty then [] else [(start, value (String.ofList code.reverse))]
  | c :: rest =>
    if !c.isDigit then decode value start length (c :: code) rest
    else
      let digit := c.toNat - '0'.toNat
      if code.isEmpty then decode value start (length * 10 + digit) [] rest
      else
        (start, value (String.ofList code.reverse)) :: decode value (start + length) digit [] rest

/-- The table that lines of text write, given the value of each name. -/
def ofLines (value : String → α) (lines : List String) : RunTable α :=
  (decode value 0 0 [] (lines.flatMap String.toList)).toArray

/-- The last entry in `lo ≤ i < hi` whose start is at or before `point`, by halving the interval.
The starts of the table ascend and the entry at `lo` is at or before `point`. -/
def find (table : RunTable α) (point lo hi : Nat) : Nat :=
  if lo + 1 < hi then
    let mid := (lo + hi) / 2
    if table[mid]?.any (·.1 ≤ point) then find table point mid hi else find table point lo mid
  else lo
termination_by hi - lo

/-- The value of a code point. -/
def value? (table : RunTable α) (point : Nat) : Option α :=
  (table[find table point 0 table.size]?).map (·.2)

/-- The closed intervals of code points up to `last` whose values pass a test, in ascending order. -/
def intervals (table : RunTable α) (last : Nat) (test : α → Bool) : List (Nat × Nat) :=
  let starts := table.toList
  let stops := (starts.drop 1).map (·.1 - 1) ++ [last]
  (starts.zip stops).filterMap fun ((start, value), stop) =>
    if test value then some (start, stop) else none

end RunTable

end Parlance.Text
