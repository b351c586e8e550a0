import Mathlib.Data.Rat.Floor
import Mathlib.Order.Compare
import Mathlib.Tactic.Positivity
import Parlance.Proofs.Evaluation
import Parlance.Proofs.Orders
import Parlance.Proofs.Widening

/-!
# Exact numbers

The whole numbers of an integral kind are those of its words, or of the characters
(`NumericKind.holds_iff_represents`). Whole numbers and decimals stand for rational numbers
(`Number.exists_toRat?_iff`). They are compared as these are, whatever their kinds are
(`Number.exists_compare?`): on decimals this is so because the common denominator that `Decimal.compare`
goes over is positive. So the comparisons of the evaluator say of such numbers what they say of the
rational numbers (`BinaryOp.Says`, `numbers_ordered`).
-/

namespace Parlance

/-! ## Words and characters -/

section

variable {width : Nat} {i : Int}

theorem exists_toInt_iff (h : 0 < width) :
    (∃ w : BitVec width, w.toInt = i) ↔ -2 ^ (width - 1) ≤ i ∧ i < 2 ^ (width - 1) := by
  constructor
  · rintro ⟨w, rfl⟩
    exact ⟨w.le_toInt, w.toInt_lt⟩
  · intro ⟨hlo, hhi⟩
    exact ⟨.ofInt width i, BitVec.toInt_ofInt_eq_self h hlo hhi⟩

theorem exists_toNat_iff : (∃ w : BitVec width, (w.toNat : Int) = i) ↔ 0 ≤ i ∧ i < 2 ^ width := by
  constructor
  · rintro ⟨w, rfl⟩
    exact ⟨Int.natCast_nonneg _, by exact_mod_cast w.isLt⟩
  · intro ⟨hlo, hhi⟩
    obtain ⟨n, rfl⟩ := Int.eq_ofNat_of_zero_le hlo
    exact ⟨.ofNat width n, by rw [BitVec.toNat_ofNat, Nat.mod_eq_of_lt (by exact_mod_cast hhi)]⟩

theorem exists_char_iff : (∃ c : Char, (c.toNat : Int) = i) ↔ 0 ≤ i ∧ i.toNat.isValidChar := by
  constructor
  · rintro ⟨c, rfl⟩
    exact ⟨Int.natCast_nonneg _, c.valid⟩
  · intro ⟨hlo, hvalid⟩
    obtain ⟨n, rfl⟩ := Int.eq_ofNat_of_zero_le hlo
    exact ⟨.ofNatAux n hvalid, rfl⟩

end

namespace NumericKind

variable {k : NumericKind} {i : Int}

/-- How many bits the words of an integral kind have; the other kinds have none, and characters are no
words. -/
def bits : NumericKind → Nat
  | sbyte | byte => 8
  | short | ushort => 16
  | int | uint => 32
  | long | ulong => 64
  | char | float | double | decimal => 0

/-- The whole number is that of a word of the kind, with a sign or without one, or the code of a
character. -/
def Represents (k : NumericKind) (i : Int) : Prop :=
  match k with
  | sbyte | short | int | long => ∃ w : BitVec k.bits, w.toInt = i
  | byte | ushort | uint | ulong => ∃ w : BitVec k.bits, (w.toNat : Int) = i
  | char => ∃ c : Char, (c.toNat : Int) = i
  | float | double | decimal => False

theorem holds_iff_represents : k.Holds i ↔ k.Represents i := by
  cases k with
  | sbyte | short | int | long =>
    simp only [Represents, bits]
    rw [exists_toInt_iff (by norm_num)]
    simp [Holds, holds, bounds?]
    omega
  | byte | ushort | uint | ulong =>
    simp only [Represents, bits]
    rw [exists_toNat_iff]
    simp [Holds, holds, bounds?]
    omega
  | char =>
    rw [Represents, exists_char_iff]
    simp [Holds, holds, bounds?, Nat.isValidChar]
    omega
  | float | double | decimal => simp [Represents, Holds, holds, bounds?]

theorem isIntegral_of_holds (h : k.Holds i) : k.isIntegral = true := by
  cases k with
  | float | double | decimal => cases h
  | _ => rfl

end NumericKind

/-! ## Rational numbers -/

theorem compares_compare (i j : Int) : (Ord.compare i j).Compares i j := by
  rw [← cmp_eq_compare]
  exact cmp_compares i j

namespace Decimal

/-- The rational number that a decimal stands for. -/
def toRat (d : Decimal) : ℚ := d.signed / 10 ^ d.scale

theorem toRat_of_ofInt? {n : Int} {d : Decimal} (h : ofInt? n = some d) : d.toRat = n := by
  unfold ofInt? make? ofParts? at h
  split at h
  · cases h
    simp only [toRat, signed, pow_zero, div_one, Int.cast_inj, Bool.and_eq_true, decide_eq_true_eq,
      bne_iff_ne]
    split <;> omega
  · cases h

/-- Over any denominator that has the places of a decimal, the decimal is the same rational number. -/
theorem toRat_eq (d : Decimal) (places : Nat) :
    d.toRat = (d.signed * Nat.pow 10 places : Int) / (10 ^ d.scale * 10 ^ places) := by
  rw [Nat.pow_eq]
  push_cast
  rw [mul_div_mul_right _ _ (pow_ne_zero places (by norm_num)), toRat]

theorem compares (a b : Decimal) : (a.compare b).Compares a.toRat b.toRat := by
  -- `compare` brings both coefficients over this denominator and leaves it out.
  let quotient (i : Int) : ℚ := i / (10 ^ a.scale * 10 ^ b.scale)
  have hquotient : StrictMono quotient := by
    intro i j hij
    exact div_lt_div_of_pos_right (Int.cast_lt.2 hij) (by positivity)
  have ha : a.toRat = quotient (a.signed * Nat.pow 10 b.scale) := a.toRat_eq b.scale
  have hb : b.toRat = quotient (b.signed * Nat.pow 10 a.scale) := by
    rw [b.toRat_eq a.scale, mul_comm (10 ^ b.scale)]
  rw [ha, hb, hquotient.compares]
  exact compares_compare _ _

end Decimal

namespace Number

/-- The rational number that a number stands for, unless its kind is floating. -/
def toRat? : Number → Option ℚ
  | integral _ n _ => some n
  | decimal d => some d.toRat
  | float _ | double _ => none

variable {a b c : Number} {x y z : ℚ} {k : NumericKind} {i : Int}

/-- The numbers of all kinds but the floating ones stand for rational numbers. -/
theorem exists_toRat?_iff : (∃ x, a.toRat? = some x) ↔ a.kind.isExact = true := by
  cases a with
  | integral k i hi => simp [toRat?, kind, NumericKind.isExact_iff, NumericKind.isIntegral_of_holds hi]
  | decimal d => exact ⟨fun _ => rfl, fun _ => ⟨d.toRat, rfl⟩⟩
  | _ => simp [toRat?, kind, NumericKind.isExact]

/-- Any whole number of a kind is also that of a decimal. -/
theorem exists_decimal (h : k.Holds i) : ∃ d, Decimal.ofInt? i = some d ∧ d.toRat = i := by
  have hsome : (Decimal.ofInt? i).isSome = true :=
    Decimal.make?_isSome (NumericKind.natAbs_lt_of_holds h) (Nat.zero_le 28)
  obtain ⟨d, hd⟩ := Option.isSome_iff_exists.1 hsome
  exact ⟨d, hd, Decimal.toRat_of_ofInt? hd⟩

/-- Exact numbers have the order of their rational numbers. -/
theorem exists_compare? (ha : a.toRat? = some x) (hb : b.toRat? = some y) :
    ∃ o, a.compare? b = some o ∧ o.Compares x y := by
  cases a with
  | integral k i hi =>
    cases ha
    cases b with
    | integral l j hj =>
      cases hb
      exact ⟨_, rfl, (Int.cast_strictMono.compares).2 (compares_compare i j)⟩
    | decimal e =>
      cases hb
      obtain ⟨d, hd, hx⟩ := exists_decimal hi
      refine ⟨d.compare e, ?_, hx ▸ d.compares e⟩
      rw [compare?, hd, Option.map_some]
    | _ => cases hb
  | decimal d =>
    cases ha
    cases b with
    | integral l j hj =>
      cases hb
      obtain ⟨e, he, hy⟩ := exists_decimal hj
      refine ⟨d.compare e, ?_, hy ▸ d.compares e⟩
      rw [compare?, he, Option.map_some]
    | decimal e =>
      cases hb
      exact ⟨_, rfl, d.compares e⟩
    | _ => cases hb
  | _ => cases ha

/-- The first number comes before the second one, or they are equal. -/
def AtMost (a b : Number) : Prop := (a.compare? b).any Ordering.isLE = true

theorem atMost_iff (ha : a.toRat? = some x) (hb : b.toRat? = some y) : a.AtMost b ↔ x ≤ y := by
  obtain ⟨o, ho, h⟩ := exists_compare? ha hb
  rw [AtMost, ho, Option.any_some, Ordering.isLE_iff_ne_gt]
  exact h.ne_gt

end Number

/-! ## Comparisons -/

namespace BinaryOp

/-- What a comparison says of two rational numbers. -/
def Says : BinaryOp → ℚ → ℚ → Prop
  | equal, x, y => x = y
  | notEqual, x, y => x ≠ y
  | greater, x, y => y < x
  | greaterOrEqual, x, y => y ≤ x
  | less, x, y => x < y
  | lessOrEqual, x, y => x ≤ y
  | _, _, _ => False

variable {op : BinaryOp} {o : Ordering} {x y : ℚ}

theorem satisfies_iff (hop : op.isOrdering = true) (h : o.Compares x y) :
    Value.satisfies op o = true ↔ op.Says x y := by
  cases op with
  | greater => exact beq_iff_eq.trans h.eq_gt
  | greaterOrEqual => exact bne_iff_ne.trans h.ne_lt
  | less => exact beq_iff_eq.trans h.eq_lt
  | lessOrEqual => exact bne_iff_ne.trans h.ne_gt
  | _ => cases hop

theorem equal_iff (hop : op.isEquality = true) (h : o.Compares x y) :
    ((o == .eq) == (op == .equal)) = true ↔ op.Says x y := by
  cases op with
  | equal => simpa [Says] using h.eq_eq
  | notEqual => simpa [Says] using h.eq_eq.not
  | _ => cases hop

/-- Only the connectives may leave their second operand alone. -/
theorem not_connective (hop : op.isArithmetic = true ∨ op.isEquality = true ∨ op.isOrdering = true) :
    (op = .and || op = .or) = false := by
  cases op with
  | and | or => simp [isArithmetic, isEquality, isOrdering] at hop
  | _ => rfl

/-- Of two rational numbers one is less, they are equal, or the other one is less. -/
theorem existsUnique_says (x y : ℚ) : ∃! op, op ∈ [less, equal, greater] ∧ op.Says x y := by
  have hne {op : BinaryOp} (hop : op ∈ [less, equal, greater]) : op = less ∨ op = equal ∨ op = greater := by
    simpa using hop
  rcases lt_trichotomy x y with h | h | h
  · refine ⟨less, ⟨by simp, h⟩, fun op ⟨hop, hsays⟩ => ?_⟩
    obtain rfl | rfl | rfl := hne hop
    · rfl
    · exact absurd hsays h.ne
    · exact absurd hsays h.asymm
  · refine ⟨equal, ⟨by simp, h⟩, fun op ⟨hop, hsays⟩ => ?_⟩
    obtain rfl | rfl | rfl := hne hop
    · exact absurd h (LT.lt.ne hsays)
    · rfl
    · exact absurd h.symm (LT.lt.ne hsays)
  · refine ⟨greater, ⟨by simp, h⟩, fun op ⟨hop, hsays⟩ => ?_⟩
    obtain rfl | rfl | rfl := hne hop
    · exact absurd hsays h.asymm
    · exact absurd hsays h.ne'
    · rfl

end BinaryOp

namespace Value

variable {op : BinaryOp} {a b : Number} {x y : ℚ}

/-- A comparison of exact numbers says what it says of their rational numbers. -/
theorem exists_comparison (hop : op.isEquality = true ∨ op.isOrdering = true) (ha : a.toRat? = some x)
    (hb : b.toRat? = some y) :
    ∃ v, (number a).binary op (number b) = .ok (bool v) ∧ (v = true ↔ op.Says x y) := by
  obtain ⟨o, ho, h⟩ := Number.exists_compare? ha hb
  unfold binary
  by_cases hequality : op.isEquality = true
  · rw [if_pos hequality]
    refine ⟨_, rfl, ?_⟩
    rw [equals, ho]
    exact BinaryOp.equal_iff hequality h
  · have hordering := hop.resolve_left hequality
    rw [if_neg hequality, if_pos hordering, if_neg (by simp [isNull]), order, ho]
    exact ⟨_, rfl, BinaryOp.satisfies_iff hordering h⟩

theorem comparison_iff (hop : op.isEquality = true ∨ op.isOrdering = true) (ha : a.toRat? = some x)
    (hb : b.toRat? = some y) :
    (number a).binary op (number b) = .ok (bool true) ↔ op.Says x y := by
  obtain ⟨v, hv, hsays⟩ := exists_comparison hop ha hb
  rw [hv, ← hsays]
  simp

end Value

/-! ## Operands -/

namespace Expr

/-- What two operands come to, the left one first. -/
def evaluatePair (left right : Expr) : Eval (Value × Value) := do
  let a ← left.evaluate
  let b ← right.evaluate
  return (a, b)

variable {op : BinaryOp} {left right : Expr} {t : ValueType} {a b : Value} {env after : List Value}

theorem evaluate_binary (hop : (op = .and || op = .or) = false) :
    (Expr.binary op left right t).evaluate =
      evaluatePair left right >>= fun pair => Eval.ofExcept (pair.1.binary op pair.2) := by
  rw [evaluate, evaluatePair, bind_assoc]
  simp only [bind_assoc, pure_bind, hop, Bool.false_eq_true, if_false]

theorem run_binary (hop : (op = .and || op = .or) = false)
    (h : (evaluatePair left right).run env = (.ok (a, b), after)) :
    (Expr.binary op left right t).evaluate.run env = (a.binary op b, after) := by
  rw [evaluate_binary hop, Eval.run_bind, h]
  rfl

end Expr

/-- Exact numbers of any kinds have the order of their rational numbers, and the opposite one the other way
round. So this order is total and transitive, and numbers are at most each other if they have one value.
The comparisons of the evaluator say of two numbers what they say of the rational numbers, so that exactly
one of less, equal and greater is true. -/
theorem numbers_ordered {a b c : Number} {x y z : ℚ} (ha : a.toRat? = some x) (hb : b.toRat? = some y)
    (hc : c.toRat? = some z) :
    (∃ o, a.compare? b = some o ∧ o.Compares x y) ∧
    b.compare? a = (a.compare? b).map .swap ∧
    (a.AtMost b ∨ b.AtMost a) ∧
    (a.AtMost b → b.AtMost c → a.AtMost c) ∧
    (a.AtMost b ∧ b.AtMost a ↔ x = y) ∧
    (∀ op : BinaryOp, op.isEquality = true ∨ op.isOrdering = true →
      ∃ v, (Value.number a).binary op (.number b) = .ok (.bool v) ∧ (v = true ↔ op.Says x y) ∧
        ∀ left right t env after,
          (Expr.evaluatePair left right).run env = (.ok (.number a, .number b), after) →
            (Expr.binary op left right t).evaluate.run env = (.ok (.bool v), after)) ∧
    ∃! op, op ∈ [BinaryOp.less, .equal, .greater] ∧
      (Value.number a).binary op (.number b) = .ok (.bool true) := by
  refine ⟨Number.exists_compare? ha hb, (a.compare?_swap b).symm, ?_, ?_, ?_, fun op hop => ?_, ?_⟩
  · rw [Number.atMost_iff ha hb, Number.atMost_iff hb ha]
    exact le_total x y
  · rw [Number.atMost_iff ha hb, Number.atMost_iff hb hc, Number.atMost_iff ha hc]
    exact le_trans
  · rw [Number.atMost_iff ha hb, Number.atMost_iff hb ha]
    exact le_antisymm_iff.symm
  · obtain ⟨v, hv, hsays⟩ := Value.exists_comparison hop ha hb
    refine ⟨v, hv, hsays, fun left right t env after hrun => ?_⟩
    rw [Expr.run_binary (BinaryOp.not_connective (.inr hop)) hrun, hv]
  · obtain ⟨op, ⟨hop, hsays⟩, hunique⟩ := BinaryOp.existsUnique_says x y
    have hcomparison {op : BinaryOp} (hop : op ∈ [BinaryOp.less, .equal, .greater]) :
        op.isEquality = true ∨ op.isOrdering = true := by
      obtain rfl | rfl | rfl : op = .less ∨ op = .equal ∨ op = .greater := by simpa using hop
      exacts [.inr rfl, .inl rfl, .inr rfl]
    refine ⟨op, ⟨hop, (Value.comparison_iff (hcomparison hop) ha hb).2 hsays⟩, fun op' ⟨hop', h⟩ => ?_⟩
    exact hunique op' ⟨hop', (Value.comparison_iff (hcomparison hop') ha hb).1 h⟩

/-- The greatest number of 64 bits with a sign. -/
def longest : Number := .integral .long 0x7fffffffffffffff (by decide)

/-- A half more. -/
def longestAndHalf : Number := .decimal ⟨false, 92233720368547758075, 1, by decide, by decide⟩

/-- One more, which is a number of 64 bits only without a sign. -/
def pastLongest : Number := .integral .ulong 0x8000000000000000 (by decide)

/-- A half and another half are added across the kinds. -/
theorem numbers_ordered_longest :
    longest.toRat? = some 0x7fffffffffffffff ∧ pastLongest.toRat? = some 0x8000000000000000 ∧
      longest.AtMost longestAndHalf ∧ longestAndHalf.AtMost pastLongest ∧ longest.AtMost pastLongest ∧
      ∃! op, op ∈ [BinaryOp.less, .equal, .greater] ∧
        (Value.number longest).binary op (.number longestAndHalf) = .ok (.bool true) := by
  have hlongest : longest.toRat? = some 0x7fffffffffffffff := by simp [longest, Number.toRat?]
  have hpast : pastLongest.toRat? = some 0x8000000000000000 := by simp [pastLongest, Number.toRat?]
  have h := numbers_ordered hlongest (b := longestAndHalf) rfl hpast
  have hfirst : longest.AtMost longestAndHalf := rfl
  have hsecond : longestAndHalf.AtMost pastLongest := rfl
  exact ⟨hlongest, hpast, hfirst, hsecond, h.2.2.2.1 hfirst hsecond, h.2.2.2.2.2.2⟩

end Parlance
