import Parlance.Pattern.Cursor

/-!
# Where matches end

`Pattern.ends` goes from a list of places to the places at which matches that start there may end, in
order of preference: the first is the match. Earlier alternatives come before later ones, and a greedy
repetition prefers one more round to stopping. No place is listed twice, which keeps the lists short.
This is for flat patterns, in which each round of an unbounded repetition takes something; others are
matched by an `Automaton`.
-/

namespace Parlance.Pattern

/-! ## Repetitions -/

/-- As many rounds as asked for. -/
def exactly (step : List Cursor → List Cursor) : Nat → List Cursor → List Cursor
  | 0, cs => cs
  | n + 1, cs => if cs.isEmpty then [] else exactly step n (step cs)

/-- A place within a bounded repetition: one more round may start there, or the repetition has ended. -/
inductive Stage where
  | going (c : Cursor)
  | ended (c : Cursor)

/-- The stages of a list without later repetitions, given the places that were met. -/
def newStages (going ended : Marks) : List Stage → List Stage
  | [] => []
  | .going c :: rest =>
    if Marks.has going c then newStages going ended rest
    else .going c :: newStages (Marks.add going c) ended rest
  | .ended c :: rest =>
    if Marks.has ended c then newStages going ended rest
    else .ended c :: newStages going (Marks.add ended c) rest

/-- What comes of a stage in one round at most. -/
def Stage.advance (greedy : Bool) (step : List Cursor → List Cursor) : Stage → List Stage
  | ended c => [ended c]
  | going c =>
    let more := (step [c]).map going
    if greedy then more ++ [ended c] else ended c :: more

/-- At most `n` further rounds. -/
def atMost (greedy : Bool) (step : List Cursor → List Cursor) : Nat → List Stage → List Stage
  | 0, stages => stages
  | n + 1, stages =>
    if stages.all fun s => s matches .ended _ then stages
    else atMost greedy step n (newStages 0 0 (stages.flatMap (Stage.advance greedy step)))

/-- The place of a stage. -/
def Stage.place : Stage → Cursor
  | going c => c
  | ended c => c

/-- The places met by an unbounded repetition, and those where it may end, the last one first. -/
structure Progress where
  met : Marks
  ends : List Cursor

/-- Adds the ends of any number of further rounds. -/
def further (greedy : Bool) (step : Cursor → List Cursor) (p : Progress) (c : Cursor) : Progress :=
  if Marks.has p.met c then p
  else
    let p := ⟨Marks.add p.met c, if greedy then p.ends else c :: p.ends⟩
    let p := (step c).foldl (fun p d =>
      if _h : d.remaining < c.remaining then further greedy step p d else p) p
    if greedy then ⟨p.met, c :: p.ends⟩ else p
termination_by c.remaining

/-- The places not met before that follow one another while a set has the characters between them, the
last one first, before the places of `passed`. -/
def stretch (set : CharSet) (met : Marks) (passed : List Cursor) (c : Cursor) : List Cursor :=
  if Marks.has met c then passed
  else
    match _h : c.next? with
    | some (x, d) => if set.contains x then stretch set met (c :: passed) d else c :: passed
    | none => c :: passed
termination_by c.remaining
decreasing_by exact Cursor.next?_remaining _h

/-- Adds the ends of any number of further characters of a set. -/
def furtherOf (greedy : Bool) (set : CharSet) (p : Progress) (c : Cursor) : Progress :=
  match stretch set p.met [] c with
  | [] => p
  | last :: passed =>
    ⟨Marks.addRun p.met c last,
      if greedy then (last :: passed).reverse ++ p.ends else last :: passed ++ p.ends⟩

/-! ## Matching -/

/-- The places where matches that start at some places may end, the preferred ones first. -/
def ends : Pattern → List Cursor → List Cursor
  | empty, cs => cs
  | one set, cs => cs.filterMap (·.pass? set)
  | look l, cs => cs.filter l.holds
  | seq first second, cs => second.ends (first.ends cs)
  | alt first second, cs => distinct (cs.flatMap fun c => first.ends [c] ++ second.ends [c])
  | group _ body, cs => body.ends cs
  | times body least (some most) greedy, cs =>
    let stages := (exactly body.ends least cs).map .going
    distinct ((atMost greedy body.ends (most - least) stages).map Stage.place)
  | times body least none greedy, cs =>
    let starts := exactly body.ends least cs
    let more := match body with
      | one set => starts.foldl (furtherOf greedy set) ⟨0, []⟩
      | body => starts.foldl (further greedy fun c => body.ends [c]) ⟨0, []⟩
    more.ends.reverse

end Parlance.Pattern
