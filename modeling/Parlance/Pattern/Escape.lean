import Parlance.Pattern.Property
import Parlance.Pattern.Basic

/-!
# Escapes in patterns

What follows a backslash: a character by its code, a punctuation character as itself, a class of
characters, or a condition on a place. `Flags` are the options under which a part of a pattern is read.
Where the option for all characters is off, classes, word boundaries and changes of case are those of
ASCII, and a set must not have other members.
-/

namespace Parlance.Pattern

open Parlance.Text

/-- The options of a part of a pattern. -/
structure Flags where
  ignoreCase : Bool := false
  multiLine : Bool := false
  dotAll : Bool := false
  crlf : Bool := false
  swapGreed : Bool := false
  ignoreSpace : Bool := false
  unicode : Bool := true
  deriving DecidableEq, Repr

/-- Drops blanks and comments, which go from a `#` to the end of the line. -/
def dropSpace (inComment : Bool) : List Char → List Char
  | [] => []
  | c :: rest =>
    if inComment then dropSpace (c != '\n') rest
    else if isBlank c then dropSpace false rest
    else if c = '#' then dropSpace true rest
    else c :: rest

/-- Drops blanks and comments where they are ignored. -/
def Flags.skip (flags : Flags) (cs : List Char) : List Char :=
  if flags.ignoreSpace then dropSpace false cs else cs

theorem dropSpace_length (inComment : Bool) (cs : List Char) :
    (dropSpace inComment cs).length ≤ cs.length := by
  induction cs generalizing inComment with
  | nil => simp [dropSpace]
  | cons c rest ih =>
    have h := fun b => Nat.le_succ_of_le (ih b)
    unfold dropSpace
    split
    · exact h _
    · split
      · exact h _
      · split
        · exact h _
        · exact Nat.le_refl _

theorem Flags.skip_length (flags : Flags) (cs : List Char) :
    (flags.skip cs).length ≤ cs.length := by
  unfold Flags.skip
  split
  · exact dropSpace_length false cs
  · exact Nat.le_refl _

/-- A set closed under the changes of case that are ignored. -/
def Flags.fold (flags : Flags) (s : CharSet) : CharSet :=
  if !flags.ignoreCase then s else if flags.unicode then .folded s else .asciiFolded s

/-- A set of characters under the options, closed under changes of case before it is negated. -/
def Flags.set? (flags : Flags) (negated : Bool) (s : CharSet) : Option CharSet :=
  if negated && !flags.unicode then none else some ((flags.fold s).negatedIf negated)

/-- One of two sets: the first if all characters count, the second if those of ASCII do. -/
def Flags.pick (flags : Flags) (all : CharSet) (ascii : String) : CharSet :=
  if flags.unicode then all else (CharSet.ascii? ascii).getD all

/-- What an escape stands for. -/
inductive Escape where
  | literal (c : Char)
  | set (s : CharSet)
  | look (l : Look)

/-- The character with a code, unless that is a surrogate or too large. -/
def charOfCode? (n : Nat) : Option Char :=
  if n < 0xd800 || 0xe000 ≤ n && n < 0x110000 then some (Char.ofNat n) else none

/-- Reads what stands before a closing brace, without what is skipped. -/
def takeBraced? (flags : Flags) (cs : List Char) : Option (List Char × List Char) :=
  match _h : flags.skip cs with
  | [] => none
  | '\x7d' :: after => some ([], after)
  | c :: rest => (takeBraced? flags rest).map fun (inside, after) => (c :: inside, after)
termination_by cs.length
decreasing_by
  have := flags.skip_length cs
  rw [_h, List.length_cons] at this
  omega

/-- Reads a number of characters, without what is skipped between them. -/
def takeSome? (flags : Flags) : Nat → List Char → Option (List Char × List Char)
  | 0, cs => some ([], cs)
  | n + 1, cs =>
    match flags.skip cs with
    | [] => none
    | c :: rest => (takeSome? flags n rest).map fun (taken, after) => (c :: taken, after)

/-- Reads hexadecimal digits: exactly `width` of them, or any number in braces. Two digits are the code
of a byte, which is a character by itself only if it is ASCII or all characters count. -/
def takeHex? (width : Nat) (flags : Flags) (cs : List Char) : Option (Char × List Char) :=
  match flags.skip cs with
  | '\x7b' :: rest => do
    let (digits, rest) ← takeBraced? flags rest
    if digits.isEmpty then none
    else some ((← charOfCode? (← hexValue? digits)), rest)
  | cs => do
    let (digits, rest) ← takeSome? flags width cs
    let c ← charOfCode? (← hexValue? digits)
    if width = 2 && !flags.unicode && 0x80 ≤ c.toNat then none else some (c, rest)

/-- Reads the name of a property: one letter, or a name in braces. -/
def takeProperty? (flags : Flags) (negated : Bool) (cs : List Char) :
    Option (CharSet × List Char) := do
  let (name, rest) ← match flags.skip cs with
    | '\x7b' :: rest => takeBraced? flags rest
    | c :: rest => some ([c], rest)
    | [] => none
  if !flags.unicode then none
  else some ((← flags.set? negated (← CharSet.property? name)), rest)

/-- Characters with a meaning of their own in patterns. -/
def isMeta (c : Char) : Bool :=
  ['\\', '.', '+', '*', '?', '(', ')', '|', '[', ']', '\x7b', '\x7d', '^', '$', '#', '&', '-',
    '~'].contains c

/-- Characters that a backslash leaves as they are: all of ASCII but letters, digits and angles. -/
def isEscapable (c : Char) : Bool :=
  isMeta c || c.toNat < 0x80 && !c.isAlphanum && c != '<' && c != '>'

/-- The names of word boundaries in braces. -/
def boundary? : String → Option Boundary
  | "start" => some .start
  | "end" => some .stop
  | "start-half" => some .startHalf
  | "end-half" => some .stopHalf
  | _ => none

/-- Reads what may stand after `\b`: the name of a boundary in braces. A brace that no name follows is
left for what comes next. -/
def takeBoundary? (flags : Flags) (cs : List Char) : Option (Boundary × List Char) :=
  let isNameChar := fun c : Char => c.isAlpha || c == '-'
  match cs with
  | '\x7b' :: rest =>
    let rest := flags.skip rest
    let name := rest.takeWhile isNameChar
    if name.isEmpty then (if rest.isEmpty then none else some (.edge, cs))
    else
      match flags.skip (rest.drop name.length) with
      | '\x7d' :: after => (boundary? (String.ofList name)).map (·, after)
      | _ => none
  | cs => some (.edge, cs)

/-- Reads an escape after its backslash. -/
def takeEscape? (flags : Flags) : List Char → Option (Escape × List Char)
  | [] => none
  | c :: rest =>
    let set := fun (negated : Bool) (all : CharSet) (ascii : String) =>
      (flags.set? negated (flags.pick all ascii)).map fun s => (.set s, rest)
    let word := fun boundary => Look.word boundary !flags.unicode
    match c with
    | 'x' => (takeHex? 2 flags rest).map fun (c, r) => (.literal c, r)
    | 'u' => (takeHex? 4 flags rest).map fun (c, r) => (.literal c, r)
    | 'U' => (takeHex? 8 flags rest).map fun (c, r) => (.literal c, r)
    | 'p' => (takeProperty? flags false rest).map fun (s, r) => (.set s, r)
    | 'P' => (takeProperty? flags true rest).map fun (s, r) => (.set s, r)
    | 'd' => set false .digit "digit"
    | 'D' => set true .digit "digit"
    | 's' => set false .blank "space"
    | 'S' => set true .blank "space"
    | 'w' => set false .word "word"
    | 'W' => set true .word "word"
    | 'a' => some (.literal '\x07', rest)
    | 'f' => some (.literal '\x0c', rest)
    | 'n' => some (.literal '\n', rest)
    | 'r' => some (.literal '\r', rest)
    | 't' => some (.literal '\t', rest)
    | 'v' => some (.literal '\x0b', rest)
    | 'A' => some (.look .textStart, rest)
    | 'z' => some (.look .textEnd, rest)
    | 'b' => (takeBoundary? flags rest).map fun (b, r) => (.look (word b), r)
    | 'B' => some (.look (word .inside), rest)
    | '<' => some (.look (word .start), rest)
    | '>' => some (.look (word .stop), rest)
    | c => if isEscapable c then some (.literal c, rest) else none

end Parlance.Pattern
