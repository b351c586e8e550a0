import Parlance.Proofs.ExactNumbers

/-!
# Arithmetic on whole numbers

An operator on two whole numbers of a kind comes to its exact result (`BinaryOp.Exact`) if that is one of
the kind; a division by zero and a result beyond the kind are told apart (`Number.Computes`). The sum, the
product and the others are computed in words of 128 bits with a sign. A product may have no such word, but
then it is beyond all kinds; the others always have one, so nothing ever wraps (`Number.computes_onWords`,
`whole_arithmetic_exact`).
-/

namespace Parlance

/-! ## Exact results -/

/-- A whole number is divided by another one, and the quotient is cut toward zero: what remains is smaller
than the divisor, and on the side of the dividend. -/
structure Divided (a b q r : Int) : Prop where
  eq : r + b * q = a
  lt : r.natAbs < b.natAbs
  nonneg : 0 ≤ a → 0 ≤ r
  nonpos : a ≤ 0 → r ≤ 0

theorem divided_iff {a b q r : Int} : Divided a b q r ↔ b ≠ 0 ∧ a.tdiv b = q ∧ a.tmod b = r := by
  constructor
  · intro ⟨heq, hlt, hnonneg, hnonpos⟩
    have hb : b ≠ 0 := by
      rintro rfl
      simp at hlt
    refine ⟨hb, ?_⟩
    rcases Int.le_total 0 a with ha | ha
    · exact (Int.tdiv_tmod_unique ha hb).2 ⟨heq, hnonneg ha, by omega⟩
    · exact (Int.tdiv_tmod_unique' ha hb).2 ⟨heq, by omega, hnonpos ha⟩
  · intro ⟨hb, h⟩
    rcases Int.le_total 0 a with ha | ha
    · obtain ⟨heq, hr, hlt⟩ := (Int.tdiv_tmod_unique ha hb).1 h
      refine ⟨heq, by omega, fun _ => hr, fun ha' => ?_⟩
      obtain rfl : a = 0 := Int.le_antisymm ha' ha
      simp [← h.2]
    · obtain ⟨heq, hlt, hr⟩ := (Int.tdiv_tmod_unique' ha hb).1 h
      refine ⟨heq, by omega, fun ha' => ?_, fun _ => hr⟩
      obtain rfl : a = 0 := Int.le_antisymm ha ha'
      simp [← h.2]

namespace BinaryOp

/-- The whole number that an operator makes of two others, without any bounds. -/
inductive Exact : BinaryOp → Int → Int → Int → Prop
  | add (a b : Int) : Exact add a b (a + b)
  | subtract (a b : Int) : Exact subtract a b (a - b)
  | multiply (a b : Int) : Exact multiply a b (a * b)
  | divide {a b q r : Int} (divided : Divided a b q r) : Exact divide a b q
  | modulo {a b q r : Int} (divided : Divided a b q r) : Exact modulo a b r

variable {op : BinaryOp} {a b r s : Int}

theorem exact_iff (h : ¬ (op.divides = true ∧ b = 0)) : op.Exact a b r ↔ op.onInt? a b = some r := by
  constructor
  · intro hr
    cases hr with
    | add | subtract | multiply => rfl
    | divide divided => exact congrArg some (divided_iff.1 divided).2.1
    | modulo divided => exact congrArg some (divided_iff.1 divided).2.2
  · intro hr
    cases op with
    | add | subtract | multiply =>
      cases hr
      constructor
    | divide =>
      cases hr
      exact .divide (divided_iff.2 ⟨fun hb => h ⟨rfl, hb⟩, rfl, rfl⟩)
    | modulo =>
      cases hr
      exact .modulo (divided_iff.2 ⟨fun hb => h ⟨rfl, hb⟩, rfl, rfl⟩)
    | _ => cases hr

theorem Exact.not_zero (h : op.Exact a b r) : ¬ (op.divides = true ∧ b = 0) := by
  rintro ⟨hop, hb⟩
  cases h with
  | add | subtract | multiply => cases hop
  | divide divided => exact (divided_iff.1 divided).1 hb
  | modulo divided => exact (divided_iff.1 divided).1 hb

theorem Exact.unique (hr : op.Exact a b r) (hs : op.Exact a b s) : r = s :=
  Option.some.inj (((exact_iff hr.not_zero).1 hr).symm.trans ((exact_iff hr.not_zero).1 hs))

theorem exists_exact (hop : op.isArithmetic = true) (h : ¬ (op.divides = true ∧ b = 0)) :
    ∃ r, op.Exact a b r ∧ op.onInt? a b = some r := by
  cases op with
  | add | subtract | multiply | divide | modulo => exact ⟨_, (exact_iff h).2 rfl, rfl⟩
  | _ => cases hop

/-- The opposite of a whole number is its difference from zero. -/
theorem exact_negate (i : Int) : Exact subtract 0 i (-i) := Int.zero_sub i ▸ .subtract 0 i

end BinaryOp

namespace Number

/-- What an operator on two whole numbers of a kind comes to: the exact result, which is a number of the
kind, or one of two failures. -/
inductive Computes (op : BinaryOp) (k : NumericKind) (i j : Int) : Except EvalError Number → Prop
  | exact {r : Int} {m : Number} (value : op.Exact i j r) (kind : m.kind = k) (toInt : m.toInt? = some r) :
      Computes op k i j (.ok m)
  | divisionByZero (divides : op.divides = true) (zero : j = 0) : Computes op k i j (.error .divisionByZero)
  | overflow {r : Int} (value : op.Exact i j r) (beyond : ¬ k.Represents r) :
      Computes op k i j (.error (.overflow op k))

variable {op : BinaryOp} {k : NumericKind} {a b m : Number} {i j r : Int} {x y : Except EvalError Number}

/-- The numbers of the integral kinds are whole numbers. -/
theorem exists_toInt?_iff : (∃ i, a.toInt? = some i) ↔ a.kind.isIntegral = true := by
  cases a with
  | integral k i hi => simp [toInt?, kind, NumericKind.isIntegral_of_holds hi]
  | _ => simp [toInt?, kind, NumericKind.isIntegral]

theorem eq_integral (hkind : m.kind = k) (hr : m.toInt? = some r) : ∃ h, m = .integral k r h := by
  cases m with
  | integral l s hs =>
    cases hkind
    cases hr
    exact ⟨hs, rfl⟩
  | _ => cases hr

/-- There is at most one such result: the three cases exclude each other. -/
theorem Computes.unique (hx : Computes op k i j x) (hy : Computes op k i j y) : x = y := by
  have hrepresents {m : Number} {r : Int} (hkind : m.kind = k) (hr : m.toInt? = some r) :
      k.Represents r := by
    obtain ⟨h, -⟩ := eq_integral hkind hr
    exact NumericKind.holds_iff_represents.1 h
  cases hx with
  | exact value kind toInt =>
    cases hy with
    | exact value' kind' toInt' =>
      obtain rfl := value.unique value'
      obtain ⟨h, rfl⟩ := eq_integral kind toInt
      obtain ⟨h', rfl⟩ := eq_integral kind' toInt'
      rfl
    | divisionByZero divides zero => exact absurd ⟨divides, zero⟩ value.not_zero
    | overflow value' beyond =>
      obtain rfl := value.unique value'
      exact absurd (hrepresents kind toInt) beyond
  | divisionByZero divides zero =>
    cases hy with
    | exact value' => exact absurd ⟨divides, zero⟩ value'.not_zero
    | divisionByZero => rfl
    | overflow value' => exact absurd ⟨divides, zero⟩ value'.not_zero
  | overflow value beyond =>
    cases hy with
    | exact value' kind' toInt' =>
      obtain rfl := value.unique value'
      exact absurd (hrepresents kind' toInt') beyond
    | divisionByZero divides zero => exact absurd ⟨divides, zero⟩ value.not_zero
    | overflow => rfl

/-- An exact result is a number of the kind if the kind holds it, and beyond it else. -/
theorem computes_ofInt? (value : op.Exact i j r) :
    Computes op k i j (match ofInt? k r with | some m => .ok m | none => .error (.overflow op k)) := by
  unfold ofInt?
  by_cases h : k.Holds r
  · rw [dif_pos h]
    exact .exact value rfl rfl
  · rw [dif_neg h]
    exact .overflow value (mt NumericKind.holds_iff_represents.2 h)

theorem computes_arithmetic (hop : op.isArithmetic = true) (hi : k.Holds i) (hj : k.Holds j) :
    Computes op k i j (arithmetic op (.integral k i hi) (.integral k j hj)) := by
  unfold arithmetic
  dsimp only
  rw [if_neg (by simp [kind])]
  by_cases hzero : op.divides = true ∧ j = 0
  · rw [if_pos (by simpa using hzero)]
    exact .divisionByZero hzero.1 hzero.2
  · obtain ⟨r, hr, hint⟩ := BinaryOp.exists_exact (a := i) hop hzero
    rw [if_neg (by simpa using hzero), hint]
    exact computes_ofInt? hr

end Number

/-! ## Words -/

/-- A word of 128 bits, which has a sign. -/
abbrev Word : Type := BitVec 128

namespace BinaryOp

/-- Checked arithmetic on words: there is no result where it would wrap, and none of a division by zero. -/
def onWord? : BinaryOp → Word → Word → Option Word
  | add, x, y => if x.saddOverflow y then none else some (x + y)
  | subtract, x, y => if x.ssubOverflow y then none else some (x - y)
  | multiply, x, y => if x.smulOverflow y then none else some (x * y)
  | divide, x, y => if y = 0 || x.sdivOverflow y then none else some (x.sdiv y)
  | modulo, x, y => if y = 0 || x.sdivOverflow y then none else some (x.srem y)
  | _, _, _ => none

variable {op : BinaryOp} {x y w : Word}

theorem divides_of_not_refused (h : ¬ (y = 0 || x.sdivOverflow y) = true) :
    y.toInt ≠ 0 ∧ (x.sdiv y).toInt = x.toInt.tdiv y.toInt := by
  rw [BitVec.sdivOverflow_eq] at h
  simp only [Bool.or_eq_true, Bool.and_eq_true, decide_eq_true_eq, not_or] at h
  refine ⟨BitVec.toInt_ne.2 h.1, BitVec.toInt_sdiv_of_ne_or_ne x y ?_⟩
  rw [BitVec.neg_one_eq_allOnes]
  tauto

/-- A result in words is the exact one. -/
theorem exact_of_onWord? (h : op.onWord? x y = some w) : op.Exact x.toInt y.toInt w.toInt := by
  cases op with
  | add =>
    simp only [onWord?, Option.ite_none_left_eq_some, Option.some.injEq] at h
    obtain ⟨hwrap, rfl⟩ := h
    rw [BitVec.toInt_add_of_not_saddOverflow hwrap]
    exact .add _ _
  | subtract =>
    simp only [onWord?, Option.ite_none_left_eq_some, Option.some.injEq] at h
    obtain ⟨hwrap, rfl⟩ := h
    rw [BitVec.toInt_sub_of_not_ssubOverflow hwrap]
    exact .subtract _ _
  | multiply =>
    simp only [onWord?, Option.ite_none_left_eq_some, Option.some.injEq] at h
    obtain ⟨hwrap, rfl⟩ := h
    rw [BitVec.toInt_mul_of_not_smulOverflow hwrap]
    exact .multiply _ _
  | divide =>
    simp only [onWord?, Option.ite_none_left_eq_some, Option.some.injEq] at h
    obtain ⟨hrefused, rfl⟩ := h
    obtain ⟨hzero, hdiv⟩ := divides_of_not_refused hrefused
    rw [hdiv]
    exact .divide (divided_iff.2 ⟨hzero, rfl, rfl⟩)
  | modulo =>
    simp only [onWord?, Option.ite_none_left_eq_some, Option.some.injEq] at h
    obtain ⟨hrefused, rfl⟩ := h
    rw [BitVec.toInt_srem]
    exact .modulo (divided_iff.2 ⟨(divides_of_not_refused hrefused).1, rfl, rfl⟩)
  | _ => cases h

/-- Where there is no result in words the exact one is no word, unless the dividend is the least word. -/
theorem exact_of_onWord?_eq_none (hop : op.isArithmetic = true)
    (hzero : ¬ (op.divides = true ∧ y.toInt = 0)) (hmin : x ≠ .intMin 128) (h : op.onWord? x y = none) :
    ∃ r, op.Exact x.toInt y.toInt r ∧ 2 ^ 127 ≤ r.natAbs := by
  -- Only the least word by minus one has a quotient that is no word.
  have hdivides (hdivides : op.divides = true) : ¬ (y = 0 || x.sdivOverflow y) = true := by
    have hy : y ≠ 0 := fun hy => hzero ⟨hdivides, by rw [hy]; rfl⟩
    have hfits : x.sdivOverflow y = false := by
      rw [BitVec.sdivOverflow_eq]
      simp [hmin]
    simpa [hfits] using hy
  cases op with
  | add =>
    simp only [onWord?, ite_eq_left_iff, reduceCtorEq, imp_false, not_not, BitVec.saddOverflow,
      Bool.or_eq_true, decide_eq_true_eq] at h
    exact ⟨_, .add _ _, by omega⟩
  | subtract =>
    simp only [onWord?, ite_eq_left_iff, reduceCtorEq, imp_false, not_not, BitVec.ssubOverflow,
      Bool.or_eq_true, decide_eq_true_eq] at h
    exact ⟨_, .subtract _ _, by omega⟩
  | multiply =>
    simp only [onWord?, ite_eq_left_iff, reduceCtorEq, imp_false, not_not, BitVec.smulOverflow,
      Bool.or_eq_true, decide_eq_true_eq] at h
    exact ⟨_, .multiply _ _, by omega⟩
  | divide | modulo =>
    rw [onWord?, if_neg (hdivides rfl)] at h
    cases h
  | _ => cases hop

end BinaryOp

/-- A number of a kind has a word, which is not the least one. -/
theorem NumericKind.Holds.toInt_ofInt {k : NumericKind} {i : Int} (h : k.Holds i) :
    (BitVec.ofInt 128 i).toInt = i ∧ BitVec.ofInt 128 i ≠ .intMin 128 := by
  have hlt := natAbs_lt_of_holds h
  rw [show Decimal.limit = 2 ^ 96 from rfl] at hlt
  have hi : (BitVec.ofInt 128 i).toInt = i := by
    apply BitVec.toInt_ofInt_eq_self <;> omega
  refine ⟨hi, fun hmin => ?_⟩
  rw [hmin, BitVec.toInt_intMin] at hi
  omega

namespace Number

/-- An arithmetic operation on two numbers of one integral kind, which is done on words. -/
def onWords (op : BinaryOp) (k : NumericKind) (x y : Word) : Except EvalError Number :=
  if op.divides && y = 0 then .error .divisionByZero
  else
    match (op.onWord? x y).bind fun w => ofInt? k w.toInt with
    | some m => .ok m
    | none => .error (.overflow op k)

variable {op : BinaryOp} {k : NumericKind} {i j : Int} {a b m : Number}

theorem computes_onWords (hop : op.isArithmetic = true) (hi : k.Holds i) (hj : k.Holds j) :
    Computes op k i j (onWords op k (.ofInt 128 i) (.ofInt 128 j)) := by
  obtain ⟨hx, hmin⟩ := hi.toInt_ofInt
  obtain ⟨hy, -⟩ := hj.toInt_ofInt
  have hyzero : BitVec.ofInt 128 j = 0#128 ↔ j = 0 := by
    rw [← BitVec.toInt_inj, hy]
    rfl
  unfold onWords
  by_cases hzero : op.divides = true ∧ j = 0
  · rw [if_pos (by simpa [hyzero] using hzero)]
    exact .divisionByZero hzero.1 hzero.2
  · rw [if_neg (by simpa [hyzero] using hzero)]
    cases hword : op.onWord? (.ofInt 128 i) (.ofInt 128 j) with
    | some w =>
      have hvalue := BinaryOp.exact_of_onWord? hword
      rw [hx, hy] at hvalue
      exact computes_ofInt? hvalue
    | none =>
      -- The exact result has more bits than a word, and no kind has as many.
      obtain ⟨r, hvalue, hr⟩ := BinaryOp.exact_of_onWord?_eq_none hop (by rwa [hy]) hmin hword
      rw [hx, hy] at hvalue
      refine .overflow hvalue fun hrepresents => ?_
      have hlt := NumericKind.natAbs_lt_of_holds (NumericKind.holds_iff_represents.2 hrepresents)
      rw [show Decimal.limit = 2 ^ 96 from rfl] at hlt
      omega

theorem zeroOf_eq (h : k.Holds i) : ∃ hzero, zeroOf k = .integral k 0 hzero := by
  cases k with
  | float | double | decimal => cases h
  | _ => exact ⟨_, rfl⟩

theorem computes_negate (hkind : a.kind = k) (hi : a.toInt? = some i) :
    Computes .subtract k 0 i (arithmetic .subtract (.zeroOf k) a) := by
  obtain ⟨h, rfl⟩ := eq_integral hkind hi
  obtain ⟨hzero, heq⟩ := zeroOf_eq h
  rw [heq]
  exact computes_arithmetic rfl hzero h

end Number

/-! ## Operators on values -/

namespace Value

variable {op : BinaryOp} {a b : Number} {k : NumericKind} {i : Int}

theorem binary_arithmetic (hop : op.isArithmetic = true) :
    (number a).binary op (number b) = (Number.arithmetic op a b).map number := by
  cases op with
  | add | subtract | multiply | divide | modulo => rfl
  | _ => cases hop

theorem exists_negate (hkind : a.kind = k) (hi : a.toInt? = some i) (h : k.Represents (-i)) :
    ∃ m, (number a).unary .negate = .ok (number m) ∧ m.kind = k ∧ m.toInt? = some (-i) := by
  let m : Number := .integral k (-i) (NumericKind.holds_iff_represents.2 h)
  have hm : Number.Computes .subtract k 0 i (.ok m) := .exact (BinaryOp.exact_negate i) rfl rfl
  have heq := (Number.computes_negate hkind hi).unique hm
  refine ⟨m, ?_, rfl, rfl⟩
  rw [unary, hkind, heq]
  rfl

theorem negate_of_not_represents (hkind : a.kind = k) (hi : a.toInt? = some i) (h : ¬ k.Represents (-i)) :
    (number a).unary .negate = .error (.overflow .subtract k) := by
  have heq := (Number.computes_negate hkind hi).unique (.overflow (BinaryOp.exact_negate i) h)
  rw [unary, hkind, heq]
  rfl

end Value

theorem Expr.run_unary {op : UnaryOp} {operand : Expr} {t : ValueType} {v : Value} {env after : List Value}
    (h : operand.evaluate.run env = (.ok v, after)) :
    (Expr.unary op operand t).evaluate.run env = (v.unary op, after) := by
  rw [evaluate, Eval.run_bind, h]
  rfl

/-- Two whole numbers of a kind and an arithmetic operator come to the exact result, if that is a number
of the kind, to the failure of a division by zero, or to an overflow. This is the outcome on words with a
sign too, and what such words come to is never wrapped. The opposite of a number is exact or overflows. -/
theorem whole_arithmetic_exact {op : BinaryOp} {k : NumericKind} {a b : Number} {i j : Int}
    (hop : op.isArithmetic = true) (ha : a.kind = k) (hb : b.kind = k) (hi : a.toInt? = some i)
    (hj : b.toInt? = some j) :
    (∀ x, Number.arithmetic op a b = x ↔ Number.Computes op k i j x) ∧
    (∀ left right t env after,
      (Expr.evaluatePair left right).run env = (.ok (.number a, .number b), after) →
        (Expr.binary op left right t).evaluate.run env =
          ((Number.arithmetic op a b).map .number, after)) ∧
    ((BitVec.ofInt 128 i).toInt = i ∧ (BitVec.ofInt 128 j).toInt = j ∧
      (∀ w, op.onWord? (.ofInt 128 i) (.ofInt 128 j) = some w → op.Exact i j w.toInt) ∧
      Number.onWords op k (.ofInt 128 i) (.ofInt 128 j) = Number.arithmetic op a b) ∧
    ((k.Represents (-i) → ∃ m, (Value.number a).unary .negate = .ok (.number m) ∧ m.kind = k ∧
        m.toInt? = some (-i)) ∧
      (¬ k.Represents (-i) → (Value.number a).unary .negate = .error (.overflow .subtract k)) ∧
      ∀ operand t env after, operand.evaluate.run env = (.ok (.number a), after) →
        (Expr.unary .negate operand t).evaluate.run env = ((Value.number a).unary .negate, after)) := by
  obtain ⟨hik, rfl⟩ := Number.eq_integral ha hi
  obtain ⟨hjk, rfl⟩ := Number.eq_integral hb hj
  have hcomputes := Number.computes_arithmetic hop hik hjk
  refine ⟨fun x => ⟨?_, hcomputes.unique⟩, fun left right t env after hrun => ?_,
    ⟨hik.toInt_ofInt.1, hjk.toInt_ofInt.1, fun w hw => ?_, ?_⟩,
    Value.exists_negate ha hi, Value.negate_of_not_represents ha hi, fun _ _ _ _ => Expr.run_unary⟩
  · rintro rfl
    exact hcomputes
  · rw [Expr.run_binary (BinaryOp.not_connective (.inl hop)) hrun, Value.binary_arithmetic hop]
  · have hvalue := BinaryOp.exact_of_onWord? hw
    rwa [hik.toInt_ofInt.1, hjk.toInt_ofInt.1] at hvalue
  · exact (Number.computes_onWords hop hik hjk).unique hcomputes

/-- The least number of 64 bits with a sign. -/
def leastLong : Number := .integral .long (-0x8000000000000000) (by decide)

/-- Its opposite. -/
def minusOne : Number := .integral .long (-1) (by decide)

/-- Divided by it, the least number overflows, but what remains is zero; and it has no opposite. -/
theorem whole_arithmetic_exact_leastLong :
    Number.arithmetic .divide leastLong minusOne = .error (.overflow .divide .long) ∧
      Number.arithmetic .modulo leastLong minusOne = .ok (.zeroOf .long) ∧
      (Value.number leastLong).unary .negate = .error (.overflow .subtract .long) := by
  have hdivided : Divided (-0x8000000000000000) (-1) 0x8000000000000000 0 :=
    divided_iff.2 ⟨by norm_num, by norm_num, by norm_num⟩
  have hbeyond : ¬ NumericKind.long.Represents 0x8000000000000000 := by
    rw [← NumericKind.holds_iff_represents]
    decide
  have hdivide := @whole_arithmetic_exact .divide .long leastLong minusOne _ _ rfl rfl rfl rfl rfl
  have hmodulo := @whole_arithmetic_exact .modulo .long leastLong minusOne _ _ rfl rfl rfl rfl rfl
  exact ⟨(hdivide.1 _).2 (.overflow (.divide hdivided) hbeyond),
    (hmodulo.1 _).2 (.exact (.modulo hdivided) rfl rfl), hdivide.2.2.2.2.1 hbeyond⟩

end Parlance
