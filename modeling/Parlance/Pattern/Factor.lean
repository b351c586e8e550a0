import Parlance.Pattern.Basic

/-!
# Building patterns

`sequence`, `choice` and `repeated` build patterns in a normal form. A sequence or a choice within one
of its own kind is part of it, unless a group keeps it apart. What all alternatives of a choice begin
with comes before the choice and is matched once, so that its own preferences go before those of the
choice; this is done only if every alternative has more than one part. A repetition of what takes no
character has one round at most.
-/

namespace Parlance.Pattern

/-- The parts of a sequence. -/
def items : Pattern → List Pattern
  | empty => []
  | seq first second => first.items ++ second.items
  | p => [p]

/-- The alternatives of a choice. -/
def alternatives : Pattern → List Pattern
  | alt first second => first.alternatives ++ second.alternatives
  | p => [p]

/-- Patterns one after the other. -/
def nest : List Pattern → Pattern
  | [] => empty
  | [p] => p
  | p :: ps => seq p (nest ps)

/-- The sequence of some patterns. -/
def sequence (ps : List Pattern) : Pattern := nest (ps.flatMap items)

/-- Patterns as alternatives, the preferred one first. -/
def choose : List Pattern → Pattern
  | [] => one .nothing
  | [p] => p
  | p :: ps => alt p (choose ps)

/-! ## Common beginnings -/

/-- The set of a single place. -/
def set? : Pattern → Option CharSet
  | one s => some s
  | _ => none

/-- Whether a pattern is a single character. -/
def isLiteral (p : Pattern) : Bool := (p.set?.bind CharSet.sole?).isSome

/-- Whether two patterns are the same. A group is not the same as any other. -/
def same : Pattern → Pattern → Bool
  | empty, empty => true
  | one a, one b => a.same b
  | look a, look b => a = b
  | seq a b, seq c d => a.same c && b.same d
  | alt a b, alt c d => a.same c && b.same d
  | times a least most greedy, times b least' most' greedy' =>
    least == least' && most == most' && greedy == greedy' && a.same b
  | _, _ => false

/-- The parts of a sequence, with the characters of a word as one part. -/
def words : List Pattern → List (List Pattern)
  | [] => []
  | p :: ps =>
    match words ps with
    | (q :: qs) :: rest =>
      if p.isLiteral && q.isLiteral then (p :: q :: qs) :: rest else [p] :: (q :: qs) :: rest
    | rest => [p] :: rest

/-- Whether two lists of patterns have the same entries. -/
def sameAll : List Pattern → List Pattern → Bool
  | [], [] => true
  | p :: ps, q :: qs => p.same q && sameAll ps qs
  | _, _ => false

/-- The number of parts that two sequences have in common at their beginnings. -/
def commonLength : List (List Pattern) → List (List Pattern) → Nat
  | v :: vs, w :: ws => if sameAll v w then commonLength vs ws + 1 else 0
  | _, _ => 0

/-- The parts that all sequences have in common at their beginnings, if each has more than one part,
and the rest of each sequence. -/
def factor? (ps : List Pattern) : Option (List (List Pattern) × List (List (List Pattern))) :=
  if ps.all fun p => p matches seq _ _ then
    match ps.map fun p => words p.items with
    | [] => none
    | first :: others =>
      if (first :: others).any (·.length ≤ 1) then none
      else
        let common := others.foldl (fun n w => min n (commonLength first w)) first.length
        if common == 0 then none
        else some (first.take common, (first :: others).map (·.drop common))
  else none

/-- The union of sets as a single place, if each of the patterns is a single character, or if none is
but all are sets. -/
def unite? (ps : List Pattern) : Option Pattern :=
  (ps.mapM set?).bind fun sets =>
    if ps.all isLiteral || ps.all fun p => !p.isLiteral then some (one (.unionOf sets)) else none

/-- The choice between some patterns, with no more than `depth` common beginnings one after another. -/
def choiceWithin (depth : Nat) (ps : List Pattern) : Pattern :=
  let ps := ps.flatMap alternatives
  match depth, ps with
  | _, [p] => p
  | 0, ps => choose ps
  | depth + 1, ps =>
    match unite? ps with
    | some p => p
    | none =>
      match factor? ps with
      | none => choose ps
      | some (common, rests) =>
        let rest := choiceWithin depth (rests.map fun words => sequence words.flatten)
        sequence (common.flatten ++ [rest])

/-- The choice between some patterns. -/
def choice (ps : List Pattern) : Pattern :=
  choiceWithin (ps.foldl (· + ·.items.length) 1) ps

/-! ## Repetitions -/

/-- Between `least` and `most` rounds of a pattern. -/
def repeated (body : Pattern) (least : Nat) (most : Option Nat) (greedy : Bool) : Pattern :=
  let least := if body.isVoid then min least 1 else least
  let most := if body.isVoid then some (min (most.getD 1) 1) else most
  if most = some 0 then empty
  else if least = 1 && most = some 1 then body
  else times body least most greedy

end Parlance.Pattern
