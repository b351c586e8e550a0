import Mathlib.Data.List.Forall2
import Parlance.Pattern.CharSet

/-!
# White space in the tables of runs

The value of a code point is that of the last run that starts at or before it
(`RunTable.value?_toArray`): the runs of a table ascend, and the search by halving keeps such a run within
its interval. So the values of some code points are told by a single pass over the runs
(`RunTable.of_allFrom`). No white space is a decimal digit or a word character
(`isDecimalDigit_of_isBlank`, `isWord_of_isBlank`).
-/

namespace Parlance

namespace Text

namespace RunTable

variable {α : Type} {value : String → α} {table : RunTable α} {p lo hi : Nat}

/-! ## The search -/

/-- The search ends at an entry of its interval; the entry starts at or before the code point unless it is
the first of the interval, and the one after it starts behind the code point unless it is the first one
after the interval. -/
theorem find_spec (hlo : lo < hi) (hhi : hi ≤ table.size) :
    lo ≤ table.find p lo hi ∧ table.find p lo hi < hi ∧
      (table.find p lo hi = lo ∨ ∃ e, table[table.find p lo hi]? = some e ∧ e.1 ≤ p) ∧
      (table.find p lo hi + 1 = hi ∨ ∃ e, table[table.find p lo hi + 1]? = some e ∧ p < e.1) := by
  fun_induction find table p lo hi with
  | case1 lo hi h mid hmid ih =>
    have hmidEq : mid = (lo + hi) / 2 := rfl
    obtain ⟨hle, hlt, hstart, hstop⟩ := ih (by omega) hhi
    refine ⟨by omega, hlt, .inr ?_, hstop⟩
    rcases hstart with heq | hstart
    · rw [heq]
      exact (Option.any_eq_true ..).1 hmid |>.imp fun e he => ⟨he.1, of_decide_eq_true he.2⟩
    · exact hstart
  | case2 lo hi h mid hmid ih =>
    have hmidEq : mid = (lo + hi) / 2 := rfl
    obtain ⟨hle, hlt, hstart, hstop⟩ := ih (by omega) (by omega)
    refine ⟨hle, by omega, hstart, .inr ?_⟩
    rcases hstop with heq | hstop
    · have hget : table[mid]? = some table[mid] := Array.getElem?_eq_getElem (by omega)
      rw [hget] at hmid
      rw [heq]
      exact ⟨_, hget, by simpa using hmid⟩
    · exact hstop
  | case3 lo hi h => exact ⟨Nat.le_refl lo, hlo, .inl rfl, .inl (by omega)⟩

/-- The runs from the last one on that starts at or before a code point, or all of them if none does. -/
def runsFrom (p : Nat) : List (Nat × α) → List (Nat × α)
  | d :: e :: runs => if p < e.1 then d :: e :: runs else runsFrom p (e :: runs)
  | runs => runs

/-- An entry that starts at or before a code point, with the next one behind it, is the last such. -/
theorem runsFrom_eq {runs : List (Nat × α)} {r : Nat} {e : Nat × α}
    (ascends : runs.Pairwise fun d e => d.1 ≤ e.1) (he : runs[r]? = some e)
    (hstart : r = 0 ∨ e.1 ≤ p) (hstop : ∀ d, runs[r + 1]? = some d → p < d.1) :
    runsFrom p runs = runs.drop r := by
  induction r generalizing runs with
  | zero =>
    match runs, he with
    | [_], rfl => rfl
    | _ :: d :: _, rfl => exact if_pos (hstop d rfl)
  | succ r ih =>
    match runs, he with
    | d :: d' :: runs, he =>
      have hle : e.1 ≤ p := hstart.resolve_left (by omega)
      obtain ⟨-, ascends⟩ := List.pairwise_cons.1 ascends
      have hd' : d'.1 ≤ p := by
        cases r with
        | zero =>
          cases he
          exact hle
        | succ r => exact Nat.le_trans ((List.pairwise_cons.1 ascends).1 e (List.mem_of_getElem? he)) hle
      rw [runsFrom, if_neg (by omega)]
      exact ih ascends he (.inr hle) hstop

theorem value?_toArray {runs : List (Nat × α)} (ascends : runs.Pairwise fun d e => d.1 ≤ e.1) :
    value? runs.toArray p = (runsFrom p runs).head?.map (·.2) := by
  cases hsize : runs with
  | nil => simp [value?, runsFrom]
  | cons first rest =>
    rw [← hsize]
    have hpos : 0 < runs.length := by simp [hsize]
    obtain ⟨-, hlt, hstart, hstop⟩ := find_spec (p := p) hpos (Nat.le_refl runs.toArray.size)
    have hget := List.getElem?_eq_getElem hlt
    have hruns : runsFrom p runs = runs.drop (find runs.toArray p 0 runs.length) := by
      refine runsFrom_eq ascends hget ?_ ?_
      · rcases hstart with heq | ⟨e, he, hle⟩
        · exact .inl heq
        · rw [List.getElem?_toArray, hget] at he
          cases he
          exact .inr hle
      · intro d hd
        rcases hstop with heq | ⟨e, he, hlt'⟩
        · rw [heq, List.getElem?_eq_none (Nat.le_refl _)] at hd
          cases hd
        · rw [List.getElem?_toArray, hd] at he
          cases he
          exact hlt'
    rw [value?, List.size_toArray, hruns, List.head?_drop, List.getElem?_toArray]

/-! ## A pass over the runs -/

/-- The pass may stop at an earlier code point. -/
theorem runsFrom_runsFrom {q : Nat} (h : p ≤ q) (runs : List (Nat × α)) :
    runsFrom q (runsFrom p runs) = runsFrom q runs := by
  fun_induction runsFrom p runs with
  | case1 => rfl
  | case2 d e runs hle ih => rw [ih, runsFrom, if_neg (by omega)]
  | case3 => rfl

/-- Whether the values of code points pass a test, by one pass over the runs. -/
def allFrom (test : α → Bool) : List Nat → List (Nat × α) → Bool
  | [], _ => true
  | p :: points, runs =>
    (runsFrom p runs).head?.all (fun e => test e.2) && allFrom test points (runsFrom p runs)

theorem of_allFrom {test : α → Bool} {points : List Nat} {runs : List (Nat × α)}
    (ascends : points.Pairwise (· ≤ ·)) (h : allFrom test points runs = true) :
    ∀ p ∈ points, ((runsFrom p runs).head?.map (·.2)).all test = true := by
  induction points generalizing runs with
  | nil => simp
  | cons q points ih =>
    obtain ⟨hle, ascends⟩ := List.pairwise_cons.1 ascends
    obtain ⟨hq, hpoints⟩ := Bool.and_eq_true_iff.1 h
    refine List.forall_mem_cons.2 ⟨by rwa [Option.all_map], fun p hp => ?_⟩
    rw [← runsFrom_runsFrom (hle p hp)]
    exact ih ascends hpoints p hp

/-! ## The runs of a table -/

/-- The starts of runs ascend. -/
theorem decode_ascends (start length : Nat) (code cs : List Char) :
    (decode value start length code cs).Pairwise (fun d e => d.1 ≤ e.1) ∧
      ∀ e ∈ decode value start length code cs, start ≤ e.1 := by
  fun_induction decode value start length code cs with
  | case1 => simp
  | case2 => simp
  | case3 start length code c rest hc ih => exact ih
  | case4 start length code c rest hc digit hcode ih => exact ih
  | case5 start length code c rest hc digit hcode ih =>
    obtain ⟨hrest, hstarts⟩ := ih
    have hle : ∀ e ∈ decode value (start + length) digit [] rest, start ≤ e.1 := fun e he =>
      Nat.le_trans (Nat.le_add_right ..) (hstarts e he)
    exact ⟨List.pairwise_cons.2 ⟨hle, hrest⟩, List.forall_mem_cons.2 ⟨Nat.le_refl _, hle⟩⟩

/-- The values of code points in a table that is written as lines, by the characters of the lines. -/
theorem value?_ofLines {value : String → α} {lines : List String} {css : List (List Char)}
    {test : α → Bool} {points : List Nat} (chars : List.Forall₂ (fun s cs => s.toList = cs) lines css)
    (ascends : points.Pairwise (· ≤ ·))
    (h : allFrom test points (decode value 0 0 [] css.flatten) = true) :
    ∀ p ∈ points, ((ofLines value lines).value? p).all test = true := by
  have hchars : List.Forall₂ (· = ·) (lines.map String.toList) css :=
    List.forall₂_map_left_iff.2 chars
  rw [List.forall₂_eq_eq_eq] at hchars
  intro p hp
  rw [ofLines, value?_toArray (decode_ascends ..).1, List.flatMap_def, hchars]
  exact of_allFrom ascends h p hp

end RunTable

/-! ## White space -/

/-- The code points of white space. -/
def blankPoints : List Nat := blanks.flatMap fun (lo, hi) => List.range' lo (hi + 1 - lo)

theorem mem_blankPoints {c : Char} (h : isBlank c = true) : c.toNat ∈ blankPoints := by
  obtain ⟨⟨lo, hi⟩, hmem, hin⟩ := List.any_eq_true.1 h
  rw [Bool.and_eq_true, decide_eq_true_eq, decide_eq_true_eq] at hin
  exact List.mem_flatMap.2 ⟨_, hmem, List.mem_range'_1.2 ⟨hin.1, by omega⟩⟩

/-- What holds of the characters of these code points holds of white space. -/
theorem of_isBlank {P : Char → Prop} (h : ∀ n ∈ blankPoints, P (Char.ofNat n)) {c : Char}
    (hc : isBlank c = true) : P c :=
  Char.ofNat_toNat c ▸ h c.toNat (mem_blankPoints hc)

/-- A category that is neither that of digits nor one of word characters. -/
def isOther (category : Category) : Bool :=
  !(Category.decimalNumber :: Pattern.wordCategories).contains category

set_option maxRecDepth 100000 in
/-- The categories of white space, in the characters of the table's lines. -/
theorem blankPoints_isOther : ∃ css : List (List Char),
    List.Forall₂ (fun s cs => s.toList = cs) Category.runLengths css ∧
      RunTable.allFrom isOther blankPoints
        (RunTable.decode (fun code => (Category.ofCode? code).getD .unassigned) 0 0 [] css.flatten) = true := by
  apply Exists.intro
  apply And.intro
  · rw [Category.runLengths]
    -- each line is a literal, whose characters unification tells
    repeat' first
      | apply List.Forall₂.cons
      | exact String.toList_ofList
      | exact .nil
  · decide +kernel

/-- White space has none of the categories of digits and word characters. -/
theorem categoryOf_of_isBlank {c : Char} (h : isBlank c = true) :
    isOther (Pattern.categoryOf c) = true := by
  obtain ⟨css, chars, hcategories⟩ := blankPoints_isOther
  have hunassigned : isOther .unassigned = true := by decide
  rw [Pattern.categoryOf]
  split
  · exact hunassigned
  · have hcategory := RunTable.value?_ofLines chars (by decide) hcategories c.toNat (mem_blankPoints h)
    rw [Category.of, Category.table]
    revert hcategory
    cases RunTable.value? _ c.toNat with
    | none => exact fun _ => hunassigned
    | some category => exact fun hcategory => hcategory

theorem isDecimalDigit_of_isBlank {c : Char} (h : isBlank c = true) :
    Pattern.isDecimalDigit c = false := by
  have hascii : c.toNat < 128 → c.isDigit = false :=
    of_isBlank (P := fun c => c.toNat < 128 → c.isDigit = false) (by decide) h
  rw [Pattern.isDecimalDigit]
  split
  · exact hascii ‹_›
  · refine decide_eq_false fun heq => ?_
    have hother := categoryOf_of_isBlank h
    rw [heq] at hother
    cases hother

theorem isWord_of_isBlank {c : Char} (h : isBlank c = true) : Pattern.isWord c = false := by
  have hascii : c.toNat < 128 → (c.isAlphanum || c == '_') = false :=
    of_isBlank (P := fun c => c.toNat < 128 → (c.isAlphanum || c == '_') = false) (by decide) h
  have hother : Pattern.otherWordPoints.contains c.toNat = false :=
    of_isBlank (P := fun c => Pattern.otherWordPoints.contains c.toNat = false) (by decide) h
  rw [Pattern.isWord]
  split
  · exact hascii ‹_›
  · rw [hother, Bool.or_false]
    refine decide_eq_false fun hmem => ?_
    have hcategory := categoryOf_of_isBlank h
    rw [isOther, List.contains_iff_mem.2 (List.mem_cons_of_mem _ hmem)] at hcategory
    cases hcategory

end Text

end Parlance
