import Parlance.Pattern.Escape

/-!
# Bracketed classes

A class in brackets is a union of characters, ranges, named classes and further brackets, or several
unions joined by set operators, which associate to the left. `ClassFrame` is a bracket that is still
open, with what has been read of it. Brackets, unions of more than one item and set operators are
nested in one another; `depth` says how deep.
-/

namespace Parlance.Pattern

/-- An operator between two unions in a bracket. -/
inductive SetOp where
  | intersection | difference | symmetricDifference
  deriving DecidableEq, Repr

/-- The set that an operator makes of two sets. -/
def SetOp.apply : SetOp → CharSet → CharSet → CharSet
  | intersection, a, b => .intersection a b
  | difference, a, b => .difference a b
  | symmetricDifference, a, b => .symmetricDifference a b

/-- A set that was read, and how deep its parts are nested. -/
structure Nested where
  set : CharSet
  depth : Nat

/-- A set without parts. -/
def Nested.leaf (s : CharSet) : Nested := ⟨s, 0⟩

/-- An open bracket: the items of the union that is being read, the last one first, and the operator and
left operand before it. -/
structure ClassFrame where
  negated : Bool
  items : List Nested
  pending : Option (SetOp × Nested)

namespace ClassFrame

/-- Adds an item to the union. -/
def add (f : ClassFrame) (s : Nested) : ClassFrame := { f with items := s :: f.items }

/-- The union that has been read. -/
def union (f : ClassFrame) : Nested :=
  let depth := (f.items.map Nested.depth).foldl max 0
  ⟨f.items.foldl (fun s item => .union item.set s) .nothing,
    if f.items.length ≤ 1 then depth else depth + 1⟩

/-- What has been read, with the pending operator applied. -/
def operand (f : ClassFrame) (flags : Flags) : Nested :=
  match f.pending with
  | some (op, left) =>
    let right := f.union
    ⟨op.apply (flags.fold left.set) (flags.fold right.set), max left.depth right.depth + 1⟩
  | none => f.union

/-- Starts the next union after an operator. -/
def join (f : ClassFrame) (flags : Flags) (op : SetOp) : ClassFrame :=
  ⟨f.negated, [], some (op, f.operand flags)⟩

/-- The set of a bracket that closes. -/
def close? (f : ClassFrame) (flags : Flags) : Option Nested :=
  let inside := f.operand flags
  (flags.set? f.negated inside.set).map fun s => ⟨s, inside.depth + 1⟩

end ClassFrame

/-- Reads dashes at the start of a bracket, which stand for themselves. -/
def takeDashes (flags : Flags) : List Char → List Nested × List Char
  | [] => ([], [])
  | c :: rest =>
    if flags.ignoreSpace && Text.isBlank c then takeDashes flags rest
    else if c = '-' then
      let (dashes, rest) := takeDashes flags rest
      (.leaf (.single '-') :: dashes, rest)
    else ([], c :: rest)

/-- Opens a bracket: a caret negates it, and dashes or else a closing bracket at its start stand for
themselves. -/
def openClass (flags : Flags) (cs : List Char) : ClassFrame × List Char :=
  let (negated, cs) := match flags.skip cs with
    | '^' :: rest => (true, rest)
    | cs => (false, cs)
  let (dashes, cs) := takeDashes flags (flags.skip cs)
  if !dashes.isEmpty then (⟨negated, dashes, none⟩, cs)
  else
    match cs with
    | ']' :: rest => (⟨negated, [.leaf (.single ']')], none⟩, rest)
    | cs => (⟨negated, [], none⟩, cs)

/-- Reads the name of a class of ASCII characters after its bracket. -/
def takeAscii? : List Char → Option (Bool × CharSet × List Char)
  | ':' :: rest =>
    let (negated, rest) := match rest with
      | '^' :: rest => (true, rest)
      | rest => (false, rest)
    let name := rest.takeWhile (· != ':')
    match rest.drop name.length with
    | ':' :: ']' :: after => (CharSet.ascii? (String.ofList name)).map fun s => (negated, s, after)
    | _ => none
  | _ => none

/-- Reads a character or an escape. -/
def takeClassItem? (flags : Flags) : List Char → Option (Escape × List Char)
  | '\\' :: rest => takeEscape? flags rest
  | c :: rest => some (.literal c, rest)
  | [] => none

/-- Whether a character may be a member of a class under the options. -/
def Flags.admits (flags : Flags) (c : Char) : Bool := flags.unicode || c.toNat < 0x80

/-- The set of a single item; conditions on places are no members of a class. -/
def Escape.toSet? (flags : Flags) : Escape → Option CharSet
  | .literal c => if flags.admits c then some (.single c) else none
  | .set s => some s
  | .look _ => none

/-- Reads an item or a range of characters. -/
def takeRange? (flags : Flags) (cs : List Char) : Option (CharSet × List Char) := do
  let (first, rest) ← takeClassItem? flags cs
  match flags.skip rest with
  | [] => none
  | '-' :: after =>
    match flags.skip after with
    | ']' :: _ | '-' :: _ => some ((← first.toSet? flags), flags.skip rest)
    | after =>
      match first, ← takeClassItem? flags after with
      | .literal lo, (.literal hi, rest) =>
        if lo ≤ hi && flags.admits lo && flags.admits hi then some (.interval lo hi, rest) else none
      | _, _ => none
  | rest => some ((← first.toSet? flags), rest)

/-- What one step inside brackets leads to: the frames that stay open, or the set of the last one. -/
inductive ClassStep where
  | more (top : ClassFrame) (below : List ClassFrame)
  | closed (s : Nested)

/-- Reads the next part of the innermost open bracket. -/
def classStep? (flags : Flags) (top : ClassFrame) (below : List ClassFrame) (cs : List Char) :
    Option (ClassStep × List Char) :=
  match cs with
  | [] => none
  | '[' :: rest =>
    match takeAscii? rest with
    | some (negated, s, rest) =>
      (flags.set? negated s).map fun s => (.more (top.add (.leaf s)) below, rest)
    | none =>
      let (frame, rest) := openClass flags rest
      some (.more frame (top :: below), rest)
  | ']' :: rest =>
    (top.close? flags).map fun s =>
      match below with
      | [] => (.closed s, rest)
      | outer :: below => (.more (outer.add s) below, rest)
  | '&' :: '&' :: rest => some (.more (top.join flags .intersection) below, rest)
  | '-' :: '-' :: rest => some (.more (top.join flags .difference) below, rest)
  | '~' :: '~' :: rest => some (.more (top.join flags .symmetricDifference) below, rest)
  | cs => (takeRange? flags cs).map fun (s, rest) => (.more (top.add (.leaf s)) below, rest)

/-- Reads a bracket to its end. Every step takes a character, so `fuel` need not exceed their number. -/
def takeClassWithin? (fuel : Nat) (flags : Flags) (top : ClassFrame) (below : List ClassFrame)
    (cs : List Char) : Option (Nested × List Char) :=
  match fuel, classStep? flags top below (flags.skip cs) with
  | _, some (.closed s, rest) => some (s, rest)
  | fuel + 1, some (.more top below, rest) => takeClassWithin? fuel flags top below rest
  | _, _ => none

/-- Reads a class after its opening bracket. -/
def takeClass? (flags : Flags) (cs : List Char) : Option (Nested × List Char) :=
  let (frame, rest) := openClass flags cs
  takeClassWithin? rest.length flags frame [] rest

end Parlance.Pattern
