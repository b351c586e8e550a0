import Parlance.Pattern.Ends

/-!
# Automata

An `Automaton` matches patterns whose repetitions are nested, or have rounds that take nothing. It
follows all ways through the pattern at once, the preferred ones first. Of two ways that come to the same
node at the same place only the preferred one goes on, and so a way ends that comes back to a node
without having taken anything.
-/

namespace Parlance.Pattern

/-- A node: a character to take, a condition on the place, two ways to go on with the preferred one
first, or the end. -/
inductive Node where
  | take (set : CharSet) (next : Nat)
  | test (l : Look) (next : Nat)
  | fork (first second : Nat)
  | done

/-- Nodes, and the number of the one to start with. -/
structure Automaton where
  nodes : Array Node
  start : Nat

namespace Automaton

/-! ## Building -/

/-- A fork between going on with a repetition and leaving it. -/
def branch (greedy : Bool) (on out : Nat) : Node :=
  if greedy then .fork on out else .fork out on

/-- Adds the nodes of something `n` times, each before the one that was added last. -/
def before (add : Nat → Array Node → Nat × Array Node) : Nat → Nat → Array Node → Nat × Array Node
  | 0, next, nodes => (next, nodes)
  | n + 1, next, nodes =>
    let (start, nodes) := add next nodes
    before add n start nodes

/-- Adds a loop that goes through something once or more, and gives its fork too. -/
def loop (greedy : Bool) (add : Nat → Array Node → Nat × Array Node) (next : Nat)
    (nodes : Array Node) : Nat × Nat × Array Node :=
  let fork := nodes.size
  let (start, nodes) := add fork (nodes.push .done)
  (start, fork, nodes.setIfInBounds fork (branch greedy start next))

/-- Adds the nodes of a pattern before a node, and gives the first of them. -/
def add : Pattern → Nat → Array Node → Nat × Array Node
  | empty, next, nodes => (next, nodes)
  | one set, next, nodes => (nodes.size, nodes.push (.take set next))
  | look l, next, nodes => (nodes.size, nodes.push (.test l next))
  | seq first second, next, nodes =>
    let (next, nodes) := add second next nodes
    add first next nodes
  | alt first second, next, nodes =>
    let (first, nodes) := add first next nodes
    let (second, nodes) := add second next nodes
    (nodes.size, nodes.push (.fork first second))
  | group _ body, next, nodes => add body next nodes
  | times body least (some most) greedy, next, nodes =>
    let optional := fun on nodes =>
      let (start, nodes) := add body on nodes
      (nodes.size, nodes.push (branch greedy start next))
    let (next, nodes) := before optional (most - least) next nodes
    before (add body) least next nodes
  | times body (least + 1) none greedy, next, nodes =>
    let (start, _, nodes) := loop greedy (add body) next nodes
    before (add body) least start nodes
  | times body 0 none greedy, next, nodes =>
    let (start, fork, nodes) := loop greedy (add body) next nodes
    if body.canBeEmpty then (nodes.size, nodes.push (branch greedy start next))
    else (fork, nodes)

/-- The automaton of a pattern. -/
def ofPattern (p : Pattern) : Automaton :=
  let (start, nodes) := add p 0 #[.done]
  ⟨nodes, start⟩

/-! ## Running -/

/-- The nodes that take a character or end the match and that can be reached at a place from the nodes
of `agenda`, the preferred ones first. `seen` has the nodes that were met, `fuel` bounds their number. -/
def reach (a : Automaton) (c : Cursor) : Nat → Nat → List Nat → List Nat
  | 0, _, _ => []
  | _, _, [] => []
  | fuel + 1, seen, n :: agenda =>
    if seen.testBit n then reach a c fuel seen agenda
    else
      let seen := seen ||| 1 <<< n
      match a.nodes[n]? with
      | some (.test l next) =>
        reach a c fuel seen (if l.holds c then next :: agenda else agenda)
      | some (.fork first second) => reach a c fuel seen (first :: second :: agenda)
      | some _ => n :: reach a c fuel seen agenda
      | none => reach a c fuel seen agenda

/-- The nodes reached from some nodes; every node adds two to the agenda at most. -/
def reachAll (a : Automaton) (c : Cursor) (agenda : List Nat) : List Nat :=
  a.reach c (agenda.length + 2 * a.nodes.size) 0 agenda

/-- Whether a node is the end. -/
def isDone (a : Automaton) (n : Nat) : Bool := a.nodes[n]?.any (· matches .done)

/-- The node after a node that takes a character. -/
def after? (a : Automaton) (x : Char) (n : Nat) : Option Nat :=
  match a.nodes[n]? with
  | some (.take set next) => if set.contains x then some next else none
  | _ => none

/-- The end of the preferred match from a place on, given the nodes to go on with and the end of the
match that has been found so far. Nodes after the end are of no use. -/
def run (a : Automaton) (agenda : List Nat) (best : Option Cursor) (c : Cursor) : Option Cursor :=
  let ways := a.reachAll c agenda
  let best := if ways.any a.isDone then some c else best
  match _h : c.next? with
  | some (x, d) =>
    let agenda := (ways.takeWhile fun n => !a.isDone n).filterMap (a.after? x)
    if agenda.isEmpty then best else a.run agenda best d
  | none => best
termination_by c.remaining
decreasing_by exact Cursor.next?_remaining _h

/-- The end of the match from a place. -/
def match? (a : Automaton) (c : Cursor) : Option Cursor := a.run [a.start] none c

end Automaton

/-! ## Matchers -/

/-- A pattern made ready for matching. -/
inductive Matcher where
  | listing (p : Pattern)
  | automaton (a : Automaton)

/-- The matcher of a pattern. -/
def Matcher.ofPattern (p : Pattern) : Matcher :=
  if p.isFlat then .listing p else .automaton (.ofPattern p)

/-- The end of the match from a place. -/
def Matcher.match? : Matcher → Cursor → Option Cursor
  | listing p, c => (p.ends [c]).head?
  | automaton a, c => a.match? c

end Parlance.Pattern
