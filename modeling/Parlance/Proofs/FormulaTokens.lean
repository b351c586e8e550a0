import Parlance.Language.Arithmetic
import Parlance.Proofs.Lexemes

/-!
# The tokens of formulas

What each rule of formulas takes, as a length (`Arithmetic.takes_lengths`): numbers and paths by the runs
of their automata, the name of a constant with the places on its two sides, functions and marks as rows.
-/

namespace Parlance

open Pattern (Cursor CharSet Automaton Matcher)

/-! ## Numbers -/

/-- The number of digits at the front. -/
def digitsLength (cs : List Char) : Nat := (cs.takeWhile Pattern.isDecimalDigit).length

/-- The number of characters that go on with a number: digits, and those behind a point if there are
any. -/
def wholeLength : List Char → Nat
  | [] => 0
  | x :: cs =>
    if Pattern.isDecimalDigit x then wholeLength cs + 1
    else if x = '.' ∧ 0 < digitsLength cs then digitsLength cs + 1
    else 0

/-- The length of a number without a sign. -/
def unsignedLength (cs : List Char) : Option Nat :=
  if 0 < digitsLength cs then some (wholeLength cs) else none

/-- The length of a number, which may have a sign. -/
def numberLength : Length := fun _ cs =>
  match cs with
  | [] => none
  | x :: cs => if x = '-' then (unsignedLength cs).map (· + 1) else unsignedLength (x :: cs)

theorem digitsLength_cons (x : Char) (cs : List Char) : digitsLength (x :: cs) =
    if Pattern.isDecimalDigit x then digitsLength cs + 1 else 0 := by
  rw [digitsLength, List.takeWhile_cons]
  split <;> rfl

theorem unsignedLength_cons (x : Char) (cs : List Char) : unsignedLength (x :: cs) =
    if Pattern.isDecimalDigit x then some (wholeLength cs + 1) else none := by
  rw [unsignedLength, digitsLength_cons, wholeLength]
  cases Pattern.isDecimalDigit x <;> simp

theorem digitsLength_le (cs : List Char) : digitsLength cs ≤ cs.length :=
  (List.takeWhile_prefix _).length_le

theorem wholeLength_le (cs : List Char) : wholeLength cs ≤ cs.length := by
  fun_induction wholeLength cs with
  | case1 => exact Nat.le_refl 0
  | case2 x cs hx ih => exact Nat.succ_le_succ ih
  | case3 x cs hx hp => exact Nat.succ_le_succ (digitsLength_le cs)
  | case4 => exact Nat.zero_le _

theorem unsignedLength_pos_le {cs : List Char} {n : Nat} (h : unsignedLength cs = some n) :
    0 < n ∧ n ≤ cs.length := by
  cases cs with
  | nil => cases h
  | cons x cs =>
    rw [unsignedLength_cons, Option.ite_none_right_eq_some] at h
    obtain ⟨-, h⟩ := h
    cases h
    exact ⟨Nat.succ_pos _, Nat.succ_le_succ (wholeLength_le cs)⟩

theorem proper_number : numberLength.Proper := by
  intro previous cs n hn
  cases cs with
  | nil => cases hn
  | cons x cs =>
    rw [numberLength] at hn
    split at hn
    · obtain ⟨m, hm, rfl⟩ := Option.map_eq_some_iff.1 hn
      exact ⟨Nat.succ_pos m, Nat.succ_le_succ (unsignedLength_pos_le hm).2⟩
    · exact unsignedLength_pos_le hn

namespace Pattern

/-- The pattern of numbers. -/
def numberPattern : Pattern :=
  .seq (.times (.one (.interval '-' '-')) 0 (some 1) true)
    (.seq (.times (.one .digit) 1 none true)
      (.times (.group none (.seq (.one (.interval '.' '.')) (.times (.one .digit) 1 none true))) 0
        (some 1) true))

/-- Its automaton: a sign or a digit at 8, more digits or a point at 5, a digit behind the point at 2, and
more of these at 1. -/
def numberAutomaton : Automaton :=
  ⟨#[.done, .fork 2 0, .take .digit 1, .take (.interval '.' '.') 2, .fork 3 0, .fork 6 4, .take .digit 5,
    .take (.interval '-' '-') 6, .fork 7 6], 8⟩

namespace Automaton

variable (best : Option Cursor) (c : Cursor) (x : Char)

theorem moves_fraction : numberAutomaton.moves x [2, 0] = if isDecimalDigit x then [1] else [] := by
  cases hx : isDecimalDigit x <;>
    simp [moves, isDone, after?, numberAutomaton, CharSet.contains_digit, hx]

theorem moves_point : numberAutomaton.moves x [2] = if isDecimalDigit x then [1] else [] := by
  cases hx : isDecimalDigit x <;>
    simp [moves, isDone, after?, numberAutomaton, CharSet.contains_digit, hx]

theorem moves_whole : numberAutomaton.moves x [6, 3, 0] =
    if isDecimalDigit x then [5] else if x = '.' then [2] else [] := by
  by_cases hp : x = '.'
  · subst hp
    decide
  · cases hx : isDecimalDigit x <;>
      simp [moves, isDone, after?, numberAutomaton, CharSet.contains_digit, CharSet.contains_single, hx,
        hp]

theorem moves_unsigned : numberAutomaton.moves x [6] = if isDecimalDigit x then [5] else [] := by
  cases hx : isDecimalDigit x <;>
    simp [moves, isDone, after?, numberAutomaton, CharSet.contains_digit, hx]

theorem moves_number : numberAutomaton.moves x [7, 6] =
    if x = '-' then [6] else if isDecimalDigit x then [5] else [] := by
  by_cases hp : x = '-'
  · subst hp
    decide
  · cases hx : isDecimalDigit x <;>
      simp [moves, isDone, after?, numberAutomaton, CharSet.contains_digit, CharSet.contains_single, hx,
        hp]

theorem run_fraction : numberAutomaton.run [1] best c = some (c.skip (digitsLength c.rest)) := by
  induction hn : c.remaining using Nat.strong_induction_on generalizing c best with
  | _ n ih =>
    have hways : numberAutomaton.reachAll c [1] = [2, 0] := rfl
    rcases c.next?_cases with ⟨hnext, hrest⟩ | ⟨x, d, hnext, hrest, -⟩
    · rw [run_end hways hnext, hrest]
      rfl
    · have hmoves := moves_fraction x
      rw [hrest, digitsLength_cons]
      cases hx : isDecimalDigit x <;> rw [hx] at hmoves
      · exact run_stop hways hnext hmoves
      · have hon := ih d.remaining (hn ▸ Cursor.next?_remaining hnext) (some c) d rfl
        rw [if_pos rfl, Cursor.skip_succ hnext]
        exact (run_on hways hnext hmoves).trans hon

/-- Behind a point the number goes on if a digit is next, and has ended before the point otherwise. -/
theorem run_point : numberAutomaton.run [2] best c =
    if 0 < digitsLength c.rest then some (c.skip (digitsLength c.rest)) else best := by
  have hways : numberAutomaton.reachAll c [2] = [2] := rfl
  rcases c.next?_cases with ⟨hnext, hrest⟩ | ⟨x, d, hnext, hrest, -⟩
  · rw [run_end hways hnext, hrest]
    rfl
  · have hmoves := moves_point x
    rw [hrest, digitsLength_cons]
    cases hx : isDecimalDigit x <;> rw [hx] at hmoves
    · exact run_stop hways hnext hmoves
    · rw [if_pos rfl, if_pos (Nat.succ_pos _), Cursor.skip_succ hnext]
      exact (run_on hways hnext hmoves).trans (run_fraction best d)

theorem run_whole : numberAutomaton.run [5] best c = some (c.skip (wholeLength c.rest)) := by
  induction hn : c.remaining using Nat.strong_induction_on generalizing c best with
  | _ n ih =>
    have hways : numberAutomaton.reachAll c [5] = [6, 3, 0] := rfl
    rcases c.next?_cases with ⟨hnext, hrest⟩ | ⟨x, d, hnext, hrest, -⟩
    · rw [run_end hways hnext, hrest]
      rfl
    · have hmoves := moves_whole x
      rw [hrest, wholeLength]
      cases hx : isDecimalDigit x <;> rw [hx] at hmoves
      · by_cases hp : x = '.'
        · rw [if_neg Bool.false_ne_true, if_pos hp] at hmoves
          rw [(run_on hways hnext hmoves).trans (run_point _ d)]
          by_cases hdigits : 0 < digitsLength d.rest <;> simp [hdigits, hp, Cursor.skip_succ hnext]
          rfl
        · rw [if_neg Bool.false_ne_true, if_neg hp] at hmoves
          rw [if_neg Bool.false_ne_true, if_neg fun h => hp h.1]
          exact run_stop hways hnext hmoves
      · have hdigit := ih d.remaining (hn ▸ Cursor.next?_remaining hnext) (some c) d rfl
        rw [if_pos rfl, Cursor.skip_succ hnext]
        exact (run_on hways hnext hmoves).trans hdigit

theorem run_unsigned : numberAutomaton.run [6] none c = (unsignedLength c.rest).map c.skip := by
  have hways : numberAutomaton.reachAll c [6] = [6] := rfl
  rcases c.next?_cases with ⟨hnext, hrest⟩ | ⟨x, d, hnext, hrest, -⟩
  · rw [run_end hways hnext, hrest]
    rfl
  · have hmoves := moves_unsigned x
    rw [hrest, unsignedLength_cons]
    cases hx : isDecimalDigit x <;> rw [hx] at hmoves
    · exact run_stop hways hnext hmoves
    · rw [if_pos rfl, Option.map_some, Cursor.skip_succ hnext]
      exact (run_on hways hnext hmoves).trans (run_whole _ d)

theorem run_number : numberAutomaton.run [8] none c = (numberLength c.previous c.rest).map c.skip := by
  have hways : numberAutomaton.reachAll c [8] = [7, 6] := rfl
  rcases c.next?_cases with ⟨hnext, hrest⟩ | ⟨x, d, hnext, hrest, -⟩
  · rw [run_end hways hnext, hrest]
    rfl
  · have hmoves := moves_number x
    rw [hrest, numberLength]
    split at hmoves
    · rename_i hx
      rw [if_pos hx]
      refine (run_on hways hnext hmoves).trans ((run_unsigned d).trans ?_)
      cases unsignedLength d.rest with
      | none => rfl
      | some n => exact congrArg some (Cursor.skip_succ hnext n).symm
    · rename_i hx
      rw [if_neg hx, unsignedLength_cons]
      cases hx : isDecimalDigit x <;> rw [hx] at hmoves
      · exact run_stop hways hnext hmoves
      · rw [if_pos rfl, Option.map_some, Cursor.skip_succ hnext]
        exact (run_on hways hnext hmoves).trans (run_whole _ d)

end Automaton

end Pattern

theorem takes_number {rule : Rule} (h : Pattern.parse? rule.pattern = some Pattern.numberPattern) :
    Takes rule numberLength :=
  takes_of_parse? h Pattern.Automaton.run_number

/-! ## Paths -/

/-- The characters that a name starts with. -/
def letters : CharSet := .ofIntervals [('A', 'Z'), ('a', 'z'), ('_', '_')]

/-- The characters that a name goes on with. -/
def nameChars : CharSet := .ofIntervals [('A', 'Z'), ('a', 'z'), ('0', '9'), ('_', '_')]

/-- Whether a name starts at the front. -/
def startsName (cs : List Char) : Bool := cs.head?.any letters.contains

/-- The number of characters that go on with a path: those of a name, and those of the names behind
points. -/
def tailLength : List Char → Nat
  | [] => 0
  | x :: cs =>
    if nameChars.contains x then tailLength cs + 1
    else if x = '.' ∧ startsName cs then tailLength cs + 1
    else 0

/-- The length of a path. -/
def pathLength : Length := fun _ cs => if startsName cs then some (tailLength cs) else none

theorem nameChars_of_letters {x : Char} (h : letters.contains x = true) :
    nameChars.contains x = true := by
  simp only [letters, nameChars, CharSet.ofIntervals, List.foldr, CharSet.contains, Bool.or_eq_true]
    at h ⊢
  tauto

theorem not_nameChars_point : nameChars.contains '.' = false := by decide

theorem tailLength_le (cs : List Char) : tailLength cs ≤ cs.length := by
  fun_induction tailLength cs with
  | case1 => exact Nat.le_refl 0
  | case2 x cs hx ih => exact Nat.succ_le_succ ih
  | case3 x cs hx hp ih => exact Nat.succ_le_succ ih
  | case4 => exact Nat.zero_le _

theorem proper_path : pathLength.Proper := by
  intro previous cs n hn
  rw [pathLength, Option.ite_none_right_eq_some] at hn
  obtain ⟨hstarts, hn⟩ := hn
  cases hn
  refine ⟨?_, tailLength_le cs⟩
  cases cs with
  | nil => cases hstarts
  | cons x cs =>
    rw [tailLength, if_pos (nameChars_of_letters hstarts)]
    exact Nat.succ_pos _

namespace Pattern

/-- The pattern of paths. -/
def pathPattern : Pattern :=
  .seq (.one letters) (.seq (.times (.one nameChars) 0 none true)
    (.times (.group none (.seq (.one (.interval '.' '.')) (.seq (.one letters)
      (.times (.one nameChars) 0 none true)))) 0 none true))

/-- Its automaton: the start at 8, the first name at 6, a name behind a point at 4, and more of it at 2. -/
def pathAutomaton : Automaton :=
  ⟨#[.done, .fork 5 0, .fork 3 1, .take nameChars 2, .take letters 2, .take (.interval '.' '.') 4,
    .fork 7 1, .take nameChars 6, .take letters 6], 8⟩

namespace Automaton

variable {best : Option Cursor} {c : Cursor}

/-- A name goes on with a character of names or with a point. -/
theorem moves_name {node : Nat} (hnode : node = 2 ∨ node = 6) : ∃ ways,
    (∀ c, pathAutomaton.reachAll c [node] = ways) ∧ ways.any pathAutomaton.isDone = true ∧
      ∀ x, pathAutomaton.moves x ways =
        if nameChars.contains x then [node] else if x = '.' then [4] else [] := by
  have hmoves (n : Nat) (hdone : pathAutomaton.isDone n = false)
      (hafter : ∀ x, pathAutomaton.after? x n = if nameChars.contains x then some node else none) (x) :
      pathAutomaton.moves x [n, 5, 0] =
        if nameChars.contains x then [node] else if x = '.' then [4] else [] := by
    have hpoint (x : Char) : pathAutomaton.after? x 5 = if x = '.' then some 4 else none := by
      simp [after?, pathAutomaton, CharSet.contains_single]
    rw [moves, show ([n, 5, 0].takeWhile fun n => !pathAutomaton.isDone n) = [n, 5] by
      rw [List.takeWhile_cons, hdone]; rfl]
    by_cases hx : nameChars.contains x = true
    · have hne : x ≠ '.' := by
        rintro rfl
        exact absurd not_nameChars_point (by simp [hx])
      simp [hafter, hpoint, hx, hne]
    · by_cases hp : x = '.' <;> simp [hafter, hpoint, hx, hp, not_nameChars_point]
  rcases hnode with rfl | rfl
  · exact ⟨[3, 5, 0], fun _ => rfl, rfl, hmoves 3 rfl fun _ => rfl⟩
  · exact ⟨[7, 5, 0], fun _ => rfl, rfl, hmoves 7 rfl fun _ => rfl⟩

/-- Behind a point the path goes on if a name starts, and has ended before the point otherwise. -/
theorem run_dot (hon : ∀ x d, c.next? = some (x, d) →
      pathAutomaton.run [2] best d = some (d.skip (tailLength d.rest))) :
    pathAutomaton.run [4] best c =
      if startsName c.rest then some (c.skip (tailLength c.rest)) else best := by
  have hways : pathAutomaton.reachAll c [4] = [4] := rfl
  rcases c.next?_cases with ⟨hnext, hrest⟩ | ⟨x, d, hnext, hrest, -⟩
  · rw [run_end hways hnext, hrest]
    rfl
  · rw [hrest, startsName, List.head?_cons, Option.any_some, tailLength]
    cases hx : letters.contains x
    · have hmoves : pathAutomaton.moves x [4] = [] := by
        simp [moves, isDone, after?, pathAutomaton, hx]
      exact run_stop hways hnext hmoves
    · have hmoves : pathAutomaton.moves x [4] = [2] := by
        simp [moves, isDone, after?, pathAutomaton, hx]
      rw [if_pos rfl, if_pos (nameChars_of_letters hx), Cursor.skip_succ hnext]
      exact (run_on hways hnext hmoves).trans (hon x d hnext)

theorem run_name {node : Nat} (hnode : node = 2 ∨ node = 6) :
    pathAutomaton.run [node] best c = some (c.skip (tailLength c.rest)) := by
  induction hn : c.remaining using Nat.strong_induction_on generalizing c best node with
  | _ n ih =>
    obtain ⟨ways, hways, hdone, hmoves⟩ := moves_name hnode
    rcases c.next?_cases with ⟨hnext, hrest⟩ | ⟨x, d, hnext, hrest, -⟩
    · rw [run_end (hways c) hnext, if_pos hdone, hrest]
      rfl
    · have hlt := hn ▸ Cursor.next?_remaining hnext
      have hmoves := hmoves x
      rw [hrest, tailLength]
      split at hmoves
      · rename_i hx
        rw [if_pos hx, Cursor.skip_succ hnext]
        exact (run_on (hways c) hnext hmoves).trans (ih d.remaining hlt hnode rfl)
      · rename_i hx
        rw [if_neg hx]
        split at hmoves
        · rename_i hp
          have hdot : pathAutomaton.run [4] (some c) d =
              if startsName d.rest then some (d.skip (tailLength d.rest)) else some c :=
            run_dot fun y e hnext' =>
              ih e.remaining ((Cursor.next?_remaining hnext').trans hlt) (.inl rfl) rfl
          rw [run_on (hways c) hnext hmoves, if_pos hdone, hdot]
          by_cases hstarts : startsName d.rest = true
          · rw [if_pos hstarts, if_pos ⟨hp, hstarts⟩, Cursor.skip_succ hnext]
          · rw [if_neg hstarts, if_neg fun h => hstarts h.2]
            rfl
        · rename_i hp
          rw [run_stop (hways c) hnext hmoves, if_pos hdone, if_neg fun h => hp h.1]
          rfl

theorem run_path (c : Cursor) :
    pathAutomaton.run [8] none c = (pathLength c.previous c.rest).map c.skip := by
  have hways : pathAutomaton.reachAll c [8] = [8] := rfl
  rcases c.next?_cases with ⟨hnext, hrest⟩ | ⟨x, d, hnext, hrest, -⟩
  · rw [run_end hways hnext, hrest]
    rfl
  · rw [hrest, pathLength, startsName, List.head?_cons, Option.any_some, tailLength]
    cases hx : letters.contains x
    · have hmoves : pathAutomaton.moves x [8] = [] := by
        simp [moves, isDone, after?, pathAutomaton, hx]
      exact run_stop hways hnext hmoves
    · have hmoves : pathAutomaton.moves x [8] = [6] := by
        simp [moves, isDone, after?, pathAutomaton, hx]
      rw [if_pos rfl, if_pos (nameChars_of_letters hx), Option.map_some, Cursor.skip_succ hnext]
      exact (run_on hways hnext hmoves).trans (run_name (.inr rfl))

end Automaton

end Pattern

theorem takes_path {rule : Rule} (h : Pattern.parse? rule.pattern = some Pattern.pathPattern) :
    Takes rule pathLength :=
  takes_of_parse? h Pattern.Automaton.run_path

/-! ## A word -/

/-- The letters of the word for the ratio of a circle. -/
def piRow : List (List Char) := [['P', 'p'], ['I', 'i']]

/-- The length of that word where no word character is beside it. -/
def piLength : Length := fun previous cs =>
  if !previous.any Pattern.isWord && Pattern.inRow piRow cs &&
    !(cs.drop 2).head?.any Pattern.isWord then some 2 else none

theorem proper_pi : piLength.Proper := by
  intro previous cs n hn
  rw [piLength, Option.ite_none_right_eq_some, Bool.and_eq_true, Bool.and_eq_true] at hn
  obtain ⟨⟨⟨-, hrow⟩, -⟩, hn⟩ := hn
  cases hn
  exact ⟨Nat.two_pos, inRow_length hrow⟩

namespace Pattern

/-- The pattern of the word. -/
def piPattern : Pattern :=
  .seq (.look (.word .edge false)) (.seq (.one (.unionOf [.interval 'P' 'P', .interval 'p' 'p']))
    (.seq (.one (.unionOf [.interval 'I' 'I', .interval 'i' 'i'])) (.look (.word .edge false))))

theorem exists_of_pi {cs : List Char} (h : inRow piRow cs = true) :
    ∃ x y ds, cs = x :: y :: ds ∧ isWord x = true ∧ isWord y = true := by
  have hletters : ∀ x ∈ ['P', 'p', 'I', 'i'], isWord x = true := List.all_eq_true.1 (by decide)
  rcases cs with _ | ⟨x, _ | ⟨y, ds⟩⟩
  · cases h
  · simp [inRow, piRow] at h
  · simp only [inRow, piRow, Bool.and_eq_true, List.contains_iff_mem] at h
    exact ⟨x, y, ds, rfl, hletters x (by grind), hletters y (by grind)⟩

theorem ends_pi (c : Cursor) : (piPattern.ends [c]).head? = (piLength c.previous c.rest).map c.skip := by
  have hp : (CharSet.unionOf [.interval 'P' 'P', .interval 'p' 'p']).members? = some ['P', 'p'] := rfl
  have hi : (CharSet.unionOf [.interval 'I' 'I', .interval 'i' 'i']).members? = some ['I', 'i'] := rfl
  have hrow : inRow piRow c.rest = (inRow [['P', 'p']] c.rest && inRow [['I', 'i']] (c.skip 1).rest) := by
    rw [Cursor.rest_skip]
    cases c.rest <;> simp [inRow, piRow]
  have hends : (piPattern.ends [c]).head? =
      if (Look.word .edge false).holds c && inRow piRow c.rest &&
        (Look.word .edge false).holds (c.skip 2) then some (c.skip 2) else none := by
    rw [piPattern, ends, ends_look, hrow]
    cases (Look.word .edge false).holds c
    · rw [if_neg Bool.false_ne_true, ends_nil]
      rfl
    · rw [if_pos rfl, ends_seq_one hp]
      cases inRow [['P', 'p']] c.rest
      · rfl
      · rw [if_pos rfl, ends_seq_one hi, ends_look, Cursor.skip_skip]
        cases inRow [['I', 'i']] (c.skip 1).rest <;>
          cases (Look.word .edge false).holds (c.skip (1 + 1)) <;> rfl
  rw [hends, piLength]
  by_cases hpi : inRow piRow c.rest = true
  · obtain ⟨x, y, cs, hrest, hx, hy⟩ := exists_of_pi hpi
    obtain ⟨-, hlast, -⟩ := Cursor.skip_append (show c.rest = [x, y] ++ cs from hrest)
    have hstart : (Look.word .edge false).holds c = !c.previous.any isWord := by
      simp [Look.holds, Boundary.holds, hrest, hx]
    have hstop : (Look.word .edge false).holds (c.skip 2) = !(c.rest.drop 2).head?.any isWord := by
      have hprevious : (c.skip 2).previous = some y := hlast
      simp [Look.holds, Boundary.holds, hprevious, hy, Cursor.rest_skip]
    rw [hstart, hstop]
    split <;> rfl
  · simp [hpi]

end Pattern

theorem takes_pi {rule : Rule} (h : Pattern.parse? rule.pattern = some Pattern.piPattern) :
    Takes rule piLength :=
  takes_of_parse? h Pattern.ends_pi

/-! ## The rules of formulas -/

namespace Arithmetic

/-- The row of a function's name, in letters of either case, and its bracket. -/
def callRow (name : String) : List (List Char) :=
  name.toList.map (fun x => [x.toUpper, x]) ++ [['(']]

/-- The rows of functions and of marks. -/
def rows : List (List (List Char)) :=
  ["sin", "cos", "tan", "sqrt", "pow", "log", "round"].map callRow ++
    ['(', ',', ')', '+', '-', '*', '/', '%'].map fun x => [[x]]

/-- What the rules of formulas take, in their order. -/
def lengths : List Length :=
  [numberLength, piLength] ++ rows.map rowLength ++ [pathLength, blankLength]

theorem takes_lengths : List.Forall₂ Takes rules lengths := by
  refine .cons (takes_number (by decide +kernel)) (.cons (takes_pi (by decide +kernel)) ?_)
  iterate 15 refine .cons (takes_row (by decide +kernel)) ?_
  exact .cons (takes_path (by decide +kernel)) (.cons (takes_blank (by decide +kernel)) .nil)

theorem proper_lengths : ∀ l ∈ lengths, l.Proper := by
  have hrows : ∀ row ∈ rows, row ≠ [] := by decide
  simp only [lengths, List.cons_append, List.nil_append, List.forall_mem_cons, List.forall_mem_append,
    List.forall_mem_map]
  exact ⟨proper_number, proper_pi, fun row hrow => proper_row (hrows row hrow), proper_path,
    proper_blank, by simp⟩

end Arithmetic

end Parlance
