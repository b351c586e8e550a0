import Parlance.Pattern.Class
import Parlance.Pattern.Factor
import Parlance.Pattern.Weight

/-!
# Reading patterns

`Pattern.parse?` reads the text of a pattern: literals, escapes, bracketed classes, groups with names
or options, alternatives and repetitions with counts. There are neither references to groups nor
conditions on what stands before or after a match. Two groups must not have one name, parts must not be
nested too deeply, and the pattern must not weigh too much.
-/

namespace Parlance.Pattern

open Parlance.Text

/-! ## Groups -/

/-- A part of a pattern, and how deep its parts are nested: brackets, repetitions, sequences and choices
count. A change of options is a part without a pattern, which cannot be repeated. -/
structure Item where
  pattern? : Option Pattern
  depth : Nat

/-- A group that is still open: the options outside of it, and what had been read there. -/
structure GroupFrame where
  flags : Flags
  captures : Bool
  name : Option String
  alternatives : List Item
  items : List Item

/-- A part of a pattern that is being read. The alternatives that are complete and the items of the
current one are in reverse order. -/
structure Reader where
  flags : Flags := {}
  alternatives : List Item := []
  items : List Item := []
  groups : List GroupFrame := []
  names : List String := []

namespace Reader

/-- Parts that are nested in one part if there is more than one of them. -/
def combine (join : List Pattern → Pattern) (items : List Item) : Item :=
  let depth := (items.map Item.depth).foldl max 0
  ⟨some (join (items.filterMap Item.pattern?)), if items.length ≤ 1 then depth else depth + 1⟩

/-- The items of the current alternative in sequence. -/
def sequence (r : Reader) : Item := combine Pattern.sequence r.items.reverse

/-- The alternatives read so far. -/
def choice (r : Reader) : Item := combine Pattern.choice (r.sequence :: r.alternatives).reverse

/-- Adds an item. -/
def push (r : Reader) (p : Pattern) (depth : Nat) : Reader :=
  { r with items := ⟨some p, depth⟩ :: r.items }

/-- Starts the next alternative. -/
def nextAlternative (r : Reader) : Reader :=
  { r with alternatives := r.sequence :: r.alternatives, items := [] }

/-- Opens a group with options. -/
def openGroup (r : Reader) (captures : Bool) (name : Option String) (flags : Flags) : Reader :=
  ⟨flags, [], [], ⟨r.flags, captures, name, r.alternatives, r.items⟩ :: r.groups, r.names⟩

/-- Closes the innermost group. -/
def closeGroup? (r : Reader) : Option Reader :=
  match r.groups with
  | [] => none
  | outer :: groups =>
    let inside := r.choice
    let pattern := inside.pattern?.map fun p => if outer.captures then .group outer.name p else p
    some ⟨outer.flags, outer.alternatives, ⟨pattern, inside.depth + 1⟩ :: outer.items, groups, r.names⟩

/-- Repeats the last item. -/
def repeatLast? (r : Reader) (least : Nat) (most : Option Nat) (greedy : Bool) : Option Reader :=
  match r.items with
  | ⟨some p, depth⟩ :: items =>
    let repeated := p.repeated least most (greedy != r.flags.swapGreed)
    some { r with items := ⟨some repeated, depth + 1⟩ :: items }
  | _ => none

end Reader

/-! ## Options and names -/

/-- Sets one option by its letter. -/
def Flags.put? (flags : Flags) (letter : Char) (on : Bool) : Option Flags :=
  match letter with
  | 'i' => some { flags with ignoreCase := on }
  | 'm' => some { flags with multiLine := on }
  | 's' => some { flags with dotAll := on }
  | 'R' => some { flags with crlf := on }
  | 'U' => some { flags with swapGreed := on }
  | 'x' => some { flags with ignoreSpace := on }
  | 'u' => some { flags with unicode := on }
  | _ => none

/-- Reads the letters of options up to a colon or a closing bracket: no letter twice, at most one dash,
which does not come last. The character that ends them is part of the result. -/
def takeFlags? (flags : Flags) (seen : List Char) : List Char → Option (Flags × Char × List Char)
  | [] => none
  | c :: rest =>
    if c = ':' || c = ')' then
      if seen.head? = some '-' || c = ')' && seen.isEmpty then none else some (flags, c, rest)
    else if seen.contains c then none
    else if c = '-' then takeFlags? flags ('-' :: seen) rest
    else (flags.put? c (!seen.contains '-')).bind fun flags => takeFlags? flags (c :: seen) rest

/-- Whether a character may stand in the name of a group. -/
def isNameChar (first : Bool) (c : Char) : Bool :=
  c == '_' || isAlphabetic c ||
    !first && (['.', '[', ']'].contains c || isNumeric c)

/-- Reads the name of a group, which must be new. -/
def takeName? (names : List String) (cs : List Char) : Option (String × List Char) :=
  let name := cs.takeWhile (· != '>')
  match name, cs.drop name.length with
  | first :: others, _ :: rest =>
    let text := String.ofList name
    if isNameChar true first && others.all (isNameChar false) && !names.contains text then
      some (text, rest)
    else none
  | _, _ => none

/-- Reads the head of a group after its bracket. -/
def Reader.takeGroup? (r : Reader) (cs : List Char) : Option (Reader × List Char) :=
  match r.flags.skip cs with
  | '?' :: '=' :: _ | '?' :: '!' :: _ => none
  | '?' :: '<' :: '=' :: _ | '?' :: '<' :: '!' :: _ => none
  | '?' :: 'P' :: '<' :: rest | '?' :: '<' :: rest => do
    let (name, rest) ← takeName? r.names rest
    some (Reader.openGroup { r with names := name :: r.names } true (some name) r.flags, rest)
  | '?' :: rest => do
    let (flags, last, rest) ← takeFlags? r.flags [] rest
    if last = ':' then some (r.openGroup false none flags, rest)
    else some ({ r with flags := flags, items := ⟨none, 0⟩ :: r.items }, rest)
  | rest => some (r.openGroup true none r.flags, rest)

/-! ## Repetitions -/

/-- The largest count of a repetition. -/
def countMax : Nat := Nat.pow 2 32 - 1

/-- Reads a count with blanks around it. -/
def takeCount? (flags : Flags) (cs : List Char) : Option (Nat × List Char) :=
  let cs := cs.dropWhile isBlank
  let digits := cs.takeWhile Char.isDigit
  let n := decimalValue digits
  if digits.isEmpty || countMax < n then none
  else some (n, (flags.skip (cs.drop digits.length)).dropWhile isBlank)

/-- Reads the end of a repetition: a question mark makes it take as little as it can. -/
def takeGreed (cs : List Char) : Bool × List Char :=
  match cs with
  | '?' :: rest => (false, rest)
  | cs => (true, cs)

/-- Reads a repetition with counts after its brace. -/
def Reader.takeCounted? (r : Reader) (cs : List Char) : Option (Reader × List Char) := do
  let (least, rest) ← takeCount? r.flags (r.flags.skip cs)
  let (most, rest) ← match rest with
    | ',' :: rest =>
      match r.flags.skip rest with
      | '\x7d' :: rest => some (none, '\x7d' :: rest)
      | rest => (takeCount? r.flags rest).map fun (n, rest) => (some n, rest)
    | rest => some (some least, rest)
  match rest with
  | '\x7d' :: rest =>
    if most.all (least ≤ ·) then
      let (greedy, rest) := takeGreed (r.flags.skip rest)
      (r.repeatLast? least most greedy).map (·, rest)
    else none
  | _ => none

/-- Reads the end of a repetition without counts. -/
def Reader.takeRepetition? (r : Reader) (least : Nat) (most : Option Nat) (cs : List Char) :
    Option (Reader × List Char) :=
  let (greedy, rest) := takeGreed cs
  (r.repeatLast? least most greedy).map (·, rest)

/-! ## Patterns -/

/-- A single character under the options. -/
def Flags.literal (flags : Flags) (c : Char) : Pattern := .one (flags.fold (.single c))

/-- What a dot stands for: any character, but for the ends of lines unless it is to have them too. -/
def Flags.dot? (flags : Flags) : Option CharSet :=
  if !flags.unicode then none
  else if flags.dotAll then some .everything
  else if flags.crlf then some (.complement (.ofIntervals [('\n', '\n'), ('\r', '\r')]))
  else some (.complement (.single '\n'))

/-- Reads the next part of a pattern. -/
def Reader.step? (r : Reader) (cs : List Char) : Option (Reader × List Char) :=
  match cs with
  | [] => none
  | c :: rest =>
    match c with
    | '(' => r.takeGroup? rest
    | ')' => r.closeGroup?.map (·, rest)
    | '|' => some (r.nextAlternative, rest)
    | '[' => (takeClass? r.flags rest).map fun (s, rest) => (r.push (.one s.set) s.depth, rest)
    | '?' => r.takeRepetition? 0 (some 1) rest
    | '*' => r.takeRepetition? 0 none rest
    | '+' => r.takeRepetition? 1 none rest
    | '\x7b' => if r.items.head?.any (·.pattern?.isSome) then r.takeCounted? rest else none
    | '.' => r.flags.dot?.map fun s => (r.push (.one s) 0, rest)
    | '^' =>
      some (r.push (.look (if r.flags.multiLine then .lineStart r.flags.crlf else .textStart)) 0, rest)
    | '$' =>
      some (r.push (.look (if r.flags.multiLine then .lineEnd r.flags.crlf else .textEnd)) 0, rest)
    | '\\' =>
      (takeEscape? r.flags rest).map fun (e, rest) =>
        let p := match e with
          | .literal c => r.flags.literal c
          | .set s => .one s
          | .look l => .look l
        (r.push p 0, rest)
    | c => some (r.push (r.flags.literal c) 0, rest)

/-- Reads a pattern to its end. Every step takes a character, so `fuel` need not exceed their number. -/
def Reader.finishWithin? (fuel : Nat) (r : Reader) (cs : List Char) : Option Item :=
  match fuel, r.flags.skip cs with
  | _, [] => if r.groups.isEmpty then some r.choice else none
  | 0, _ => none
  | fuel + 1, cs => (r.step? cs).bind fun (r, rest) => r.finishWithin? fuel rest

/-- How deep the parts of a pattern may be nested. -/
def depthMax : Nat := 250

/-- Reads the characters of a pattern. -/
def parseChars? (cs : List Char) : Option Pattern := do
  let item ← Reader.finishWithin? cs.length {} cs
  let p ← item.pattern?
  if item.depth ≤ depthMax && p.fits then some p else none

/-- Reads the text of a pattern. -/
def parse? (text : String) : Option Pattern := parseChars? text.toList

end Parlance.Pattern
