import Mathlib.Data.Bool.AllAny
import Parlance.Proofs.FormulaTokens
import Parlance.Proofs.RunTables

/-!
# Where the tokens of formulas end

What the rules of formulas take up to a character does not depend on what is behind it if no token goes on
from it (`Apart.lengths_append`), and on what is before it only where a word starts
(`lengths_previous`). A token ends with such a character, or stands for an operand and has no stop behind
it; the first character of a token that does not start an operand is a stop (`lexeme_of_firstLength`).
-/

namespace Parlance

namespace RuleKind

/-- Whether an operand may start with a token. -/
def startsOperand (k : RuleKind) : Bool := k matches operand _ | bracketOpen | functionCall _

/-- Whether an operand may end with a token. -/
def endsOperand (k : RuleKind) : Bool := k matches operand _ | bracketClose ..

end RuleKind

namespace Arithmetic

open Pattern (isDecimalDigit isWord)

/-! ## Where tokens end -/

/-- White space, and the marks that may stand right behind an operand. -/
def isStop (x : Char) : Bool := Text.isBlank x || ['+', '-', '*', '/', '%', ')', ','].contains x

/-- The characters that a number or a name may end with. -/
def isWordy (x : Char) : Bool := isDecimalDigit x || nameChars.contains x

theorem of_isStop {x : Char} (h : isStop x = true) : isDecimalDigit x = false ∧
    nameChars.contains x = false ∧ isWord x = false ∧ x ≠ '.' := by
  rcases Bool.or_eq_true_iff.1 h with h | h
  · have hchars : nameChars.contains x = false ∧ x ≠ '.' :=
      Text.of_isBlank (P := fun x => nameChars.contains x = false ∧ x ≠ '.') (by decide) h
    exact ⟨Text.isDecimalDigit_of_isBlank h, hchars.1, Text.isWord_of_isBlank h, hchars.2⟩
  · have hmarks : ∀ x ∈ ['+', '-', '*', '/', '%', ')', ','], isDecimalDigit x = false ∧
        nameChars.contains x = false ∧ isWord x = false ∧ x ≠ '.' :=
      List.all_iff_forall_prop.1 (by decide)
    exact hmarks x (List.contains_iff_mem.1 h)

/-- No token goes on from a character to those behind it. -/
inductive Apart : Char → List Char → Prop
  | word {y : Char} {tail : List Char} (wordy : isWordy y = true) (stop : tail.head?.all isStop = true) :
      Apart y tail
  | minus {tail : List Char} (digit : tail.head?.any isDecimalDigit = false) : Apart '-' tail
  | mark {y : Char} {tail : List Char} (mark : y ∈ ['+', '*', '/', '%', '(', ')', ',']) : Apart y tail

/-- A row in which words are not cut: no character but those of its last list ends a token, and none but
those of its first list stands behind one. -/
def Parted (row : List (List Char)) : Prop :=
  (∀ members ∈ row.dropLast, ∀ x ∈ members, isWordy x = true) ∧
    ∀ members ∈ row.tail, ∀ x ∈ members, isStop x = false

instance (row : List (List Char)) : Decidable (Parted row) :=
  decidable_of_iff (row.dropLast.all (·.all isWordy) ∧ row.tail.all (·.all (!isStop ·))) (by simp [Parted])

namespace Apart

variable {x tail : List Char} {y : Char}

theorem stop (apart : Apart y tail) (h : isWordy y = true) : tail.head?.all isStop = true := by
  cases apart with
  | word _ stop => exact stop
  | minus => exact absurd h (by decide)
  | mark mark =>
    have hmarks : ∀ y ∈ ['+', '*', '/', '%', '(', ')', ','], isWordy y = false :=
      List.all_iff_forall_prop.1 (by decide)
    rw [hmarks y mark] at h
    cases h

theorem ne_point (apart : Apart y tail) : y ≠ '.' := by
  rintro rfl
  cases apart with
  | word wordy => exact absurd wordy (by decide)
  | mark mark => exact absurd mark (by decide)

theorem not_blank (apart : Apart y tail) : Text.isBlank y = false := by
  cases apart with
  | word wordy =>
    refine Bool.eq_false_iff.2 fun h => ?_
    obtain ⟨hdigit, hname, -⟩ := of_isStop (Bool.or_eq_true_iff.2 (.inl h))
    rw [isWordy, hdigit, hname] at wordy
    cases wordy
  | minus => decide
  | mark mark =>
    have hmarks : ∀ y ∈ ['+', '*', '/', '%', '(', ')', ','], Text.isBlank y = false :=
      List.all_iff_forall_prop.1 (by decide)
    exact hmarks y mark

/-! ### Numbers -/

theorem digitsLength_of_stop (h : tail.head?.all isStop = true) : digitsLength tail = 0 := by
  cases tail with
  | nil => rfl
  | cons z tail => rw [digitsLength_cons, if_neg (by simp [(of_isStop h).1])]

theorem wholeLength_of_stop (h : tail.head?.all isStop = true) : wholeLength tail = 0 := by
  cases tail with
  | nil => rfl
  | cons z tail =>
    obtain ⟨hdigit, -, -, hpoint⟩ := of_isStop h
    rw [wholeLength, if_neg (by simp [hdigit]), if_neg fun h => hpoint h.1]

theorem tailLength_of_stop (h : tail.head?.all isStop = true) : tailLength tail = 0 := by
  cases tail with
  | nil => rfl
  | cons z tail =>
    obtain ⟨-, hname, -, hpoint⟩ := of_isStop h
    rw [tailLength, if_neg (by simp [hname]), if_neg fun h => hpoint h.1]

theorem unsignedLength_of_minus (apart : Apart '-' tail) : unsignedLength tail = none := by
  cases tail with
  | nil => rfl
  | cons z tail =>
    have hz : isDecimalDigit z = false := by
      cases apart with
      | word wordy => exact absurd wordy (by decide)
      | minus digit => exact digit
      | mark mark => exact absurd mark (by decide)
    rw [unsignedLength_cons, if_neg (by simp [hz])]

variable (apart : Apart y tail)
include apart

theorem digitsLength_append (hx : x.getLast? = some y) : digitsLength (x ++ tail) = digitsLength x := by
  induction x with
  | nil => cases hx
  | cons z x ih =>
    rw [List.cons_append, digitsLength_cons, digitsLength_cons]
    split
    · rename_i hz
      cases x with
      | nil =>
        cases hx
        exact congrArg (· + 1) (digitsLength_of_stop (apart.stop (by simp [isWordy, hz])))
      | cons w x => rw [ih hx]
    · rfl

theorem wholeLength_append (hx : x.getLast? = some y) : wholeLength (x ++ tail) = wholeLength x := by
  induction x with
  | nil => cases hx
  | cons z x ih =>
    rw [List.cons_append, wholeLength, wholeLength]
    cases x with
    | nil =>
      cases hx
      split
      · rename_i hz
        exact congrArg (· + 1) (wholeLength_of_stop (apart.stop (by simp [isWordy, hz])))
      · rw [if_neg fun h => apart.ne_point h.1, if_neg fun h => apart.ne_point h.1]
    | cons w x =>
      have hdigits := apart.digitsLength_append (x := w :: x) hx
      rw [ih hx, hdigits]

theorem unsignedLength_append (hx : x.getLast? = some y) :
    unsignedLength (x ++ tail) = unsignedLength x := by
  rw [unsignedLength, unsignedLength, apart.digitsLength_append hx, apart.wholeLength_append hx]

theorem numberLength_append (hx : x.getLast? = some y) (previous : Option Char) :
    numberLength previous (x ++ tail) = numberLength previous x := by
  cases x with
  | nil => cases hx
  | cons z x =>
    rw [List.cons_append, numberLength, numberLength]
    split
    · rename_i hz
      subst hz
      cases x with
      | nil =>
        cases hx
        rw [List.nil_append, unsignedLength_of_minus apart]
        rfl
      | cons w x => rw [apart.unsignedLength_append (x := w :: x) hx]
    · rw [← List.cons_append, apart.unsignedLength_append hx]

/-! ### Paths and white space -/

theorem tailLength_append (hx : x.getLast? = some y) : tailLength (x ++ tail) = tailLength x := by
  induction x with
  | nil => cases hx
  | cons z x ih =>
    rw [List.cons_append, tailLength, tailLength]
    cases x with
    | nil =>
      cases hx
      split
      · rename_i hz
        exact congrArg (· + 1) (tailLength_of_stop (apart.stop (by simp [isWordy, hz])))
      · rw [if_neg fun h => apart.ne_point h.1, if_neg fun h => apart.ne_point h.1]
    | cons w x =>
      have hstarts : startsName (w :: x ++ tail) = startsName (w :: x) := rfl
      rw [ih hx, hstarts]

theorem pathLength_append (hx : x.getLast? = some y) (previous : Option Char) :
    pathLength previous (x ++ tail) = pathLength previous x := by
  have hstarts : startsName (x ++ tail) = startsName x := by
    cases x with
    | nil => cases hx
    | cons z x => rfl
  rw [pathLength, pathLength, hstarts, apart.tailLength_append hx]

theorem blankLength_append (hx : x.getLast? = some y) (previous : Option Char) :
    blankLength previous (x ++ tail) = blankLength previous x := by
  have hpart : (x.takeWhile Text.isBlank).length ≠ x.length := fun h => by
    have hall := List.takeWhile_eq_self_iff.1 ((List.takeWhile_prefix _).eq_of_length h)
    exact absurd (hall y (List.mem_of_getLast? hx)) (by simp [apart.not_blank])
  rw [blankLength, blankLength, List.takeWhile_append, if_neg hpart]

/-! ### Rows -/

theorem inRow_append {row : List (List Char)} (parted : Parted row) (hx : x.getLast? = some y) :
    Pattern.inRow row (x ++ tail) = Pattern.inRow row x := by
  induction row generalizing x with
  | nil => rfl
  | cons members row ih =>
    obtain ⟨words, stops⟩ := parted
    match x, row, hx with
    | z :: w :: x, row, hx =>
      have hx : (w :: x).getLast? = some y := hx
      have parted : Parted row := by
        cases row with
        | nil => exact ⟨by simp, by simp⟩
        | cons members' row =>
          exact ⟨fun m hm => words m (List.mem_cons_of_mem _ hm),
            fun m hm => stops m (List.mem_cons_of_mem _ hm)⟩
      have hrest := ih parted hx
      rw [List.cons_append, Pattern.inRow, Pattern.inRow, hrest]
    | [z], [], rfl => rfl
    | [z], members' :: row, rfl =>
      rw [List.singleton_append, Pattern.inRow, Pattern.inRow]
      cases hz : members.contains z with
      | false => rfl
      | true =>
        have hstop := apart.stop (words members List.mem_cons_self z (List.contains_iff_mem.1 hz))
        cases tail with
        | nil => rfl
        | cons w tail =>
          have hw : members'.contains w = false := Bool.eq_false_iff.2 fun hw => by
            have hnot := stops members' List.mem_cons_self w (List.contains_iff_mem.1 hw)
            rw [List.head?_cons, Option.all_some, hnot] at hstop
            cases hstop
          rw [Pattern.inRow, Pattern.inRow, hw]
          rfl

theorem rowLength_append {row : List (List Char)} (parted : Parted row) (hx : x.getLast? = some y)
    (previous : Option Char) : rowLength row previous (x ++ tail) = rowLength row previous x := by
  rw [rowLength, rowLength, apart.inRow_append parted hx]

theorem piLength_append (hx : x.getLast? = some y) (previous : Option Char) :
    piLength previous (x ++ tail) = piLength previous x := by
  have hrow : Pattern.inRow piRow (x ++ tail) = Pattern.inRow piRow x :=
    apart.inRow_append (by decide) hx
  rw [piLength, piLength, hrow]
  by_cases hpi : Pattern.inRow piRow x = true
  · have hnext : ((x ++ tail).drop 2).head?.any isWord = (x.drop 2).head?.any isWord := by
      obtain ⟨a, b, cs, rfl, -, -⟩ := Pattern.exists_of_pi hpi
      cases cs with
      | nil =>
        cases hx
        have hb : b = 'I' ∨ b = 'i' := by
          simp only [Pattern.inRow, piRow, Bool.and_eq_true, List.contains_iff_mem] at hpi
          simpa using hpi.2.1
        have hwordy : isWordy b = true := by rcases hb with rfl | rfl <;> decide
        have hstop := apart.stop hwordy
        cases tail with
        | nil => rfl
        | cons z tail => exact (of_isStop hstop).2.2.1
      | cons c cs => rfl
    rw [hnext]
  · simp [hpi]

/-- What is taken up to such a character does not depend on what is behind it. -/
theorem lengths_append (hx : x.getLast? = some y) (previous : Option Char) :
    ∀ l ∈ lengths, l previous (x ++ tail) = l previous x := by
  have hrows : ∀ row ∈ rows, Parted row := by decide
  simp only [lengths, List.cons_append, List.nil_append, List.forall_mem_cons, List.forall_mem_append,
    List.forall_mem_map]
  exact ⟨apart.numberLength_append hx previous, apart.piLength_append hx previous,
    fun row hrow => apart.rowLength_append (hrows row hrow) hx previous,
    apart.pathLength_append hx previous, apart.blankLength_append hx previous, by simp⟩

end Apart

/-- What is taken depends on the character before it only if a word may start. -/
theorem lengths_previous {previous previous' : Option Char} {cs : List Char}
    (h : previous.any isWord = previous'.any isWord ∨ cs.head?.any isStop = true) :
    ∀ l ∈ lengths, l previous cs = l previous' cs := by
  have hpi : piLength previous cs = piLength previous' cs := by
    rcases h with h | h
    · rw [piLength, piLength, h]
    · have hrow : Pattern.inRow piRow cs = false := by
        cases cs with
        | nil => rfl
        | cons z cs =>
          have hz : ['P', 'p'].contains z = false := by
            have hletters : ∀ z ∈ ['P', 'p'], isWord z = true := List.all_eq_true.1 (by decide)
            refine Bool.eq_false_iff.2 fun hz => ?_
            have hword := hletters z (List.contains_iff_mem.1 hz)
            rw [(of_isStop h).2.2.1] at hword
            cases hword
          rw [piRow, Pattern.inRow, hz]
          rfl
      rw [piLength, piLength, hrow]
      simp
  simp only [lengths, List.cons_append, List.nil_append, List.forall_mem_cons, List.forall_mem_append,
    List.forall_mem_map]
  exact ⟨rfl, hpi, fun row _ => rfl, rfl, rfl, by simp⟩

/-! ## The texts of tokens -/

/-- What a text may be for a token of a rule. -/
inductive Lexeme (rule : Rule) : List Char → Prop
  | blank {x : List Char} (ignored : rule.ignored = true) (nonempty : x ≠ [])
      (blank : ∀ z ∈ x, Text.isBlank z = true) : Lexeme rule x
  | word {x : List Char} {y : Char} (kept : rule.ignored = false)
      (starts : rule.kind.startsOperand = true) (ends : rule.kind.endsOperand = true)
      (last : x.getLast? = some y) (wordy : isWordy y = true) : Lexeme rule x
  | mark {x : List Char} {y : Char} (kept : rule.ignored = false) (last : x.getLast? = some y)
      (mark : y ∈ ['+', '*', '/', '%', '(', ')', ','] ∨ x = ['-'])
      (starts : rule.kind.startsOperand = true ∨ ∃ z, x = [z] ∧ isStop z = true) : Lexeme rule x

/-- The tokens of a rule that takes what a length tells are such texts. -/
def Lexical (rule : Rule) (length : Length) : Prop :=
  ∀ previous x tail, length previous (x ++ tail) = some x.length → Lexeme rule x

/-- A row whose last character is a mark. -/
def Marked (rule : Rule) (row : List (List Char)) : Prop :=
  rule.ignored = false ∧
  ((∃ y ∈ ['+', '*', '/', '%', '(', ')', ','], row.getLast? = some [y]) ∨ row = [['-']]) ∧
    (rule.kind.startsOperand = true ∨ ∃ z ∈ ['+', '-', '*', '/', '%', ')', ','], row = [[z]])

instance (rule : Rule) (row : List (List Char)) : Decidable (Marked rule row) :=
  decidable_of_iff (rule.ignored = false ∧
    (['+', '*', '/', '%', '(', ')', ','].any (row.getLast? == some [·]) ∨ row = [['-']]) ∧
    (rule.kind.startsOperand = true ∨ ['+', '-', '*', '/', '%', ')', ','].any (row == [[·]])))
    (by simp [Marked])

/-- A rule whose tokens are operands. -/
def IsOperand (rule : Rule) : Prop :=
  rule.ignored = false ∧ rule.kind.startsOperand = true ∧ rule.kind.endsOperand = true

instance (rule : Rule) : Decidable (IsOperand rule) := inferInstanceAs (Decidable (_ ∧ _ ∧ _))

variable {rule : Rule}

theorem mem_getLast?_cons {y z : Char} {x : List Char} (h : y ∈ (z :: x).getLast?) :
    x = [] ∧ y = z ∨ y ∈ x.getLast? := by
  cases x with
  | nil =>
    cases h
    exact .inl ⟨rfl, rfl⟩
  | cons w x => exact .inr h

theorem digit_of_last_digits (cs : List Char) :
    ∀ y ∈ (cs.take (digitsLength cs)).getLast?, isDecimalDigit y = true := fun y hy => by
  rw [digitsLength, ← List.prefix_iff_eq_take.1 (List.takeWhile_prefix _)] at hy
  exact List.mem_takeWhile_imp (List.mem_of_getLast? hy)

theorem digit_of_last_whole (cs : List Char) :
    ∀ y ∈ (cs.take (wholeLength cs)).getLast?, isDecimalDigit y = true := fun y hy => by
  fun_induction wholeLength cs with
  | case1 => cases hy
  | case2 x cs hx ih =>
    rcases mem_getLast?_cons hy with ⟨-, rfl⟩ | hy
    · exact hx
    · exact ih hy
  | case3 x cs hx hp =>
    rcases mem_getLast?_cons hy with ⟨hnil, -⟩ | hy
    · have hlt := hp.2
      have hle := digitsLength_le cs
      have hlength := congrArg List.length hnil
      rw [List.length_take, List.length_nil] at hlength
      omega
    · exact digit_of_last_digits cs y hy
  | case4 => cases hy

theorem digit_of_last_unsigned {cs : List Char} {n : Nat} (h : unsignedLength cs = some n) :
    ∀ y ∈ (cs.take n).getLast?, isDecimalDigit y = true := by
  rw [unsignedLength, Option.ite_none_right_eq_some] at h
  obtain ⟨-, h⟩ := h
  cases h
  exact digit_of_last_whole cs

theorem digit_of_last_number {previous : Option Char} {cs : List Char} {n : Nat}
    (h : numberLength previous cs = some n) :
    ∀ y ∈ (cs.take n).getLast?, isDecimalDigit y = true := fun y hy => by
  cases cs with
  | nil => cases h
  | cons z cs =>
    rw [numberLength] at h
    split at h
    · obtain ⟨m, hm, rfl⟩ := Option.map_eq_some_iff.1 h
      rcases mem_getLast?_cons hy with ⟨hnil, -⟩ | hy
      · have hlength := congrArg List.length hnil
        rw [List.length_take_of_le (unsignedLength_pos_le hm).2, List.length_nil] at hlength
        exact absurd hlength (unsignedLength_pos_le hm).1.ne'
      · exact digit_of_last_unsigned hm y hy
    · exact digit_of_last_unsigned h y hy

theorem name_of_last_tail (cs : List Char) :
    ∀ y ∈ (cs.take (tailLength cs)).getLast?, nameChars.contains y = true := fun y hy => by
  fun_induction tailLength cs with
  | case1 => cases hy
  | case2 x cs hx ih =>
    rcases mem_getLast?_cons hy with ⟨-, rfl⟩ | hy
    · exact hx
    · exact ih hy
  | case3 x cs hx hp ih =>
    rcases mem_getLast?_cons hy with ⟨hnil, -⟩ | hy
    · cases cs with
      | nil => cases hp.2
      | cons z cs =>
        rw [tailLength, if_pos (nameChars_of_letters hp.2)] at hnil
        cases hnil
    · exact ih hy
  | case4 => cases hy

theorem lexical_number (h : IsOperand rule) : Lexical rule numberLength := by
  intro previous x tail hlength
  have hne := List.ne_nil_of_length_pos (proper_number _ _ _ hlength).1
  have hlast := digit_of_last_number hlength
  rw [List.take_left] at hlast
  have hy := hlast _ (List.getLast?_eq_some_getLast hne)
  exact .word h.1 h.2.1 h.2.2 (List.getLast?_eq_some_getLast hne) (by simp [isWordy, hy])

theorem lexical_path (h : IsOperand rule) : Lexical rule pathLength := by
  intro previous x tail hlength
  have hne := List.ne_nil_of_length_pos (proper_path _ _ _ hlength).1
  rw [pathLength, Option.ite_none_right_eq_some] at hlength
  have hlast := name_of_last_tail (x ++ tail)
  rw [Option.some.inj hlength.2, List.take_left] at hlast
  have hy := hlast _ (List.getLast?_eq_some_getLast hne)
  exact .word h.1 h.2.1 h.2.2 (List.getLast?_eq_some_getLast hne) (by simp [isWordy, hy])

theorem lexical_pi (h : IsOperand rule) : Lexical rule piLength := by
  intro previous x tail hlength
  rw [piLength, Option.ite_none_right_eq_some, Bool.and_eq_true, Bool.and_eq_true] at hlength
  obtain ⟨⟨⟨-, hrow⟩, -⟩, hlength⟩ := hlength
  obtain ⟨a, b, rfl⟩ : ∃ a b, x = [a, b] := List.length_eq_two.1 (Option.some.inj hlength).symm
  have hletters : ∀ b ∈ ['I', 'i'], isWordy b = true := List.all_eq_true.1 (by decide)
  simp only [Pattern.inRow, piRow, List.cons_append, Bool.and_eq_true, List.contains_iff_mem] at hrow
  exact .word h.1 h.2.1 h.2.2 rfl (hletters b hrow.2.1)

/-- The last character of a row is one of its last list. -/
theorem last_of_inRow {row : List (List Char)} {members x tail : List Char}
    (hrow : Pattern.inRow row (x ++ tail) = true) (hlength : x.length = row.length)
    (hlast : row.getLast? = some members) : ∃ y ∈ members, x.getLast? = some y := by
  induction row generalizing x with
  | nil => cases hlast
  | cons members' row ih =>
    match x, row, hlast with
    | [z], [], rfl =>
      rw [List.singleton_append, Pattern.inRow, Bool.and_eq_true] at hrow
      exact ⟨z, List.contains_iff_mem.1 hrow.1, rfl⟩
    | z :: w :: x, row' :: row, hlast =>
      rw [List.cons_append, Pattern.inRow, Bool.and_eq_true] at hrow
      exact ih (x := w :: x) hrow.2 (Nat.succ.inj hlength) hlast

theorem lexical_row {row : List (List Char)} (h : Marked rule row) : Lexical rule (rowLength row) := by
  intro previous x tail hlength
  rw [rowLength, Option.ite_none_right_eq_some] at hlength
  obtain ⟨hrow, hlength⟩ := hlength
  have hlength : x.length = row.length := (Option.some.inj hlength).symm
  have hsingle (z : Char) (h : row = [[z]]) : x = [z] := by
    subst h
    obtain ⟨w, rfl⟩ := List.length_eq_one_iff.1 hlength
    simp only [Pattern.inRow, List.cons_append, Bool.and_true, List.contains_iff_mem,
      List.mem_singleton] at hrow
    rw [hrow]
  obtain ⟨kept, hmark, hstarts⟩ := h
  have hstarts : rule.kind.startsOperand = true ∨ ∃ z, x = [z] ∧ isStop z = true := by
    rcases hstarts with hstarts | ⟨z, hz, hrow⟩
    · exact .inl hstarts
    · exact .inr ⟨z, hsingle z hrow, Bool.or_eq_true_iff.2 (.inr (List.contains_iff_mem.2 hz))⟩
  rcases hmark with ⟨y, hy, hlast⟩ | hminus
  · obtain ⟨z, hz, hlast⟩ := last_of_inRow hrow hlength hlast
    rw [List.mem_singleton.1 hz] at hlast
    exact .mark kept hlast (.inl hy) hstarts
  · have hx := hsingle '-' hminus
    exact .mark kept (y := '-') (by rw [hx]; rfl) (.inr hx) hstarts

theorem lexical_blank (h : rule.ignored = true) : Lexical rule blankLength := by
  intro previous x tail hlength
  have hne := List.ne_nil_of_length_pos (proper_blank _ _ _ hlength).1
  rw [blankLength, Option.ite_none_right_eq_some] at hlength
  have hx := List.prefix_iff_eq_take.1 (List.takeWhile_prefix (l := x ++ tail) Text.isBlank)
  rw [Option.some.inj hlength.2, List.take_left] at hx
  exact .blank h hne fun z hz => List.mem_takeWhile_imp (hx ▸ hz)

theorem lexical_lengths : List.Forall₂ Lexical rules lengths := by
  refine .cons (lexical_number (by decide)) (.cons (lexical_pi (by decide)) ?_)
  iterate 15 refine .cons (lexical_row (by decide)) ?_
  exact .cons (lexical_path (by decide)) (.cons (lexical_blank rfl) .nil)

/-- A token that is read has a text for its rule. -/
theorem lexeme_of_firstLength {previous : Option Char} {x tail : List Char} {i : Nat}
    (first : firstLength lengths previous (x ++ tail) = some (i, x.length)) :
    ∃ rule, rules[i]? = some rule ∧ Lexeme rule x := by
  obtain ⟨rule, l, hrule, hlexical, hl⟩ := exists_of_firstLength lexical_lengths first
  exact ⟨rule, hrule, hlexical _ _ _ hl⟩

/-- White space is read as such. -/
theorem firstLength_of_blank {previous : Option Char} {z : Char} {cs : List Char}
    (hz : Text.isBlank z = true) : firstLength lengths previous (z :: cs) =
      some (18, ((z :: cs).takeWhile Text.isBlank).length) := by
  have hlengths : lengths =
      (numberLength :: piLength :: (rows.map rowLength ++ [pathLength])) ++ [blankLength] := rfl
  have hrow (row : List (List Char)) (hrow : row ∈ rows ∨ row = piRow) :
      Pattern.inRow row (z :: cs) = false := by
    have hheads : ∀ row ∈ piRow :: rows, ∀ n ∈ Text.blankPoints,
        row.head?.all (·.contains (Char.ofNat n)) = false := by decide
    exact not_inRow_of_head (Text.of_isBlank (P := fun z => row.head?.all (·.contains z) = false)
      (hheads row (List.mem_cons.2 hrow.symm)) hz)
  have hnumber : numberLength previous (z :: cs) = none := by
    have hminus : z ≠ '-' := Text.of_isBlank (P := (· ≠ '-')) (by decide) hz
    rw [numberLength, if_neg hminus, unsignedLength_cons,
      if_neg (by simp [Text.isDecimalDigit_of_isBlank hz])]
  have hpath : pathLength previous (z :: cs) = none := by
    have hletter : letters.contains z = false :=
      Text.of_isBlank (P := fun z => letters.contains z = false) (by decide) hz
    exact if_neg (by simp [startsName, hletter])
  have hnone : ∀ l ∈ numberLength :: piLength :: (rows.map rowLength ++ [pathLength]),
      l previous (z :: cs) = none := by
    simp only [List.forall_mem_cons, List.forall_mem_append, List.forall_mem_map]
    refine ⟨hnumber, ?_, fun row h => ?_, hpath, by simp⟩
    · simp [piLength, hrow piRow (.inr rfl)]
    · simp [rowLength, hrow row (.inl h)]
  rw [hlengths, firstLength_append hnone, firstLength, blankLength,
    if_pos (by simp [hz])]
  rfl

end Arithmetic

end Parlance
