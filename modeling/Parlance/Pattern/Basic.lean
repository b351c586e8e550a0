import Parlance.Pattern.CharSet

/-!
# Patterns

A `Pattern` describes texts: sequences, alternatives in order of preference and repetitions of single
characters and of conditions on places. A group is a part that was written in round brackets; it
matches what its body matches.
-/

namespace Parlance

/-- Which places at the edge of a word a condition asks for. -/
inductive Pattern.Boundary where
  | edge | inside | start | stop | startHalf | stopHalf
  deriving DecidableEq, Repr

/-- A condition on the place between two characters. The line conditions know the ends of lines that
`\n` makes, or those that `\r`, `\n` and `\r\n` make; words are made of any word characters or of those
of ASCII only. -/
inductive Pattern.Look where
  | textStart | textEnd
  | lineStart (crlf : Bool) | lineEnd (crlf : Bool)
  | word (boundary : Pattern.Boundary) (ascii : Bool)
  deriving DecidableEq, Repr

/-- A pattern of texts. -/
inductive Pattern where
  | empty
  | one (set : Pattern.CharSet)
  | look (l : Pattern.Look)
  | seq (first second : Pattern)
  | alt (first second : Pattern)
  | times (body : Pattern) (least : Nat) (most : Option Nat) (greedy : Bool)
  | group (name : Option String) (body : Pattern)
  deriving DecidableEq, Repr

namespace Pattern

/-- Whether some alternative takes no character. -/
def canBeEmpty : Pattern → Bool
  | empty => true
  | one _ => false
  | look _ => true
  | seq first second => first.canBeEmpty && second.canBeEmpty
  | alt first second => first.canBeEmpty || second.canBeEmpty
  | times body least _ _ => least == 0 || body.canBeEmpty
  | group _ body => body.canBeEmpty

/-- Whether no alternative takes a character. -/
def isVoid : Pattern → Bool
  | empty => true
  | one _ => false
  | look _ => true
  | seq first second => first.isVoid && second.isVoid
  | alt first second => first.isVoid && second.isVoid
  | times body _ most _ => most == some 0 || most.isSome && body.isVoid
  | group _ body => body.isVoid

/-- Whether there are no repetitions but optional parts. -/
def isSimple : Pattern → Bool
  | empty => true
  | one _ => true
  | look _ => true
  | seq first second => first.isSimple && second.isSimple
  | alt first second => first.isSimple && second.isSimple
  | times body _ most _ => most == some 1 && body.isSimple
  | group _ body => body.isSimple

/-- Whether choices and repetitions have no repetitions within them, and every round of a repetition
without an upper bound takes a character. -/
def isFlat : Pattern → Bool
  | empty => true
  | one _ => true
  | look _ => true
  | seq first second => first.isFlat && second.isFlat
  | alt first second => first.isSimple && second.isSimple
  | times body _ most _ => (most.isSome || !body.canBeEmpty) && body.isSimple
  | group _ body => body.isFlat

/-- The alternatives of a pattern that are groups with names, in order. -/
def branches : Pattern → List (String × Pattern)
  | alt first second => first.branches ++ second.branches
  | group (some name) body => [(name, body)]
  | _ => []

end Pattern

end Parlance
