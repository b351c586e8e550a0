import Parlance.Expr.Eval
import Parlance.Proofs.Step
import Parlance.Proofs.Typing

/-!
# Operations on typed values

`EvalError.Admissible` are the failures that typing does not rule out, and `Outcome` is a result that is
as it should be or such a failure. Every conversion, operator and access takes values of the types that
it is meant for to an outcome of the type that it is meant to have.
-/

namespace Parlance

/-! ## Outcomes -/

/-- Whether an expression may fail in this way although its types are right. Of all mismatches only that
of a number beyond 64 bits with a sign is left, where an enum is wanted. -/
def EvalError.isAdmissible : EvalError → Bool
  | divisionByZero | overflow .. | nullReference _ | conversion _ | function .. | panic _ => true
  | typeMismatch (.type (.enum _)) (.number (.integral .ulong n _)) => 0x7fffffffffffffff < n
  | typeMismatch .. | unboundParameter _ | arity .. => false

/-- Typing does not rule out the failure. -/
abbrev EvalError.Admissible (e : EvalError) : Prop := e.isAdmissible = true

/-- The result satisfies a predicate, or the failure is one that typing does not rule out. -/
def Outcome {α : Type} (P : α → Prop) : Except EvalError α → Prop
  | .ok a => P a
  | .error e => e.Admissible

namespace Outcome

variable {α β : Type} {P : α → Prop} {Q : β → Prop}

theorem imp {Q : α → Prop} {x : Except EvalError α} (hx : Outcome P x) (h : ∀ a, P a → Q a) :
    Outcome Q x := by
  cases x with
  | error e => exact hx
  | ok a => exact h a hx

theorem map {x : Except EvalError α} {f : α → β} (hx : Outcome P x) (hf : ∀ a, P a → Q (f a)) :
    Outcome Q (x.map f) := by
  cases x with
  | error e => exact hx
  | ok a => exact hf a hx

theorem ofValue {x : Except ValueError α} (hx : ∀ a, x = .ok a → P a) :
    Outcome P (EvalError.ofValue x) := by
  cases x with
  | error e => exact rfl
  | ok a => exact hx a rfl

end Outcome

/-! ## Numbers -/

namespace Number

theorem kind_of_ofInt? {k : NumericKind} {i : Int} {n : Number} (h : ofInt? k i = some n) :
    n.kind = k := by
  unfold ofInt? at h
  split at h
  · cases h
    rfl
  · cases h

@[simp] theorem kind_zeroOf (k : NumericKind) : (zeroOf k).kind = k := by
  cases k <;> rfl

theorem kind_of_convert {n m : Number} {k : NumericKind} (h : n.convert k = .ok m) : m.kind = k := by
  unfold convert convert? at h
  split at h
  · rename_i heq
    cases h
    split at heq
    · cases heq
      assumption
    · split at heq
      · cases heq
        rfl
      · cases heq
        rfl
      · obtain ⟨d, -, rfl⟩ := Option.map_eq_some_iff.1 heq
        rfl
      · obtain ⟨i, -, hi⟩ := Option.bind_eq_some_iff.1 heq
        exact kind_of_ofInt? hi
  · cases h

/-- Numbers of a kind that may stand behind an enum are whole. -/
theorem exists_integral {n : Number} (h : n.kind.isEnumCompatible = true) :
    ∃ k i, ∃ hi : k.Holds i, n = integral k i hi := by
  cases n with
  | integral k i hi => exact ⟨k, i, hi, rfl⟩
  | _ => simp [kind, NumericKind.isEnumCompatible] at h

theorem bounds_of_holds {k : NumericKind} {i : Int} (h : k.Holds i) :
    ∃ lo hi, k.bounds? = some (lo, hi) ∧ lo ≤ i ∧ i ≤ hi := by
  unfold NumericKind.Holds NumericKind.holds at h
  split at h
  · rename_i lo hi heq
    simp only [Bool.and_eq_true, decide_eq_true_eq] at h
    exact ⟨lo, hi, heq, h.1.1, h.1.2⟩
  · cases h

theorem holds_long {i : Int} :
    NumericKind.long.Holds i ↔ -0x8000000000000000 ≤ i ∧ i ≤ 0x7fffffffffffffff := by
  simp [NumericKind.Holds, NumericKind.holds, NumericKind.bounds?]

theorem outcome_arithmetic {op : BinaryOp} {a b : Number} (hop : op.isArithmetic = true)
    (hkind : b.kind = a.kind) : Outcome (fun n => n.kind = a.kind) (arithmetic op a b) := by
  unfold arithmetic
  dsimp only
  rw [if_neg (by simpa using hkind)]
  split
  · split
    · rfl
    · split
      · rfl
      · rfl
      · cases op <;> simp_all [decimalOp?, BinaryOp.isArithmetic]
  · split
    · rfl
    · cases op <;> simp_all [BinaryOp.onDouble?, BinaryOp.isArithmetic]
  · split
    · rfl
    · cases op <;> simp_all [BinaryOp.onDouble?, BinaryOp.isArithmetic]
  · split
    · rfl
    · split
      · split
        · rename_i hn
          exact kind_of_ofInt? hn
        · rfl
      · cases op <;> simp_all [BinaryOp.onInt?, BinaryOp.isArithmetic]
  · rename_i hf hdouble hd hi
    cases a with
    | integral k x hx =>
      cases b with
      | integral l y hy => exact (hi k x hx l y hy rfl rfl).elim
      | _ =>
        obtain ⟨lo, hi, hb, -⟩ := bounds_of_holds hx
        simp only [kind] at hkind
        simp [← hkind, NumericKind.bounds?] at hb
    | float x => exact (hf x rfl).elim
    | double x => exact (hdouble x rfl).elim
    | decimal x =>
      cases b with
      | decimal y => exact (hd x y rfl rfl).elim
      | integral l y hy =>
        obtain ⟨lo, hi, hb, -⟩ := bounds_of_holds hy
        simp only [kind] at hkind
        simp [hkind, NumericKind.bounds?] at hb
      | _ => simp [kind] at hkind

end Number

/-! ## Conversions -/

namespace Value

variable {v a b : Value} {t u : ValueType}

theorem outcome_numberToEnum {n : Number} (d : EnumType) (h : n.kind.isEnumCompatible = true) :
    Outcome (fun v => ∃ i, v = enum d i) (numberToEnum d n) := by
  obtain ⟨k, i, hi, rfl⟩ := Number.exists_integral h
  simp only [numberToEnum, Number.toInt?]
  split
  · exact ⟨_, rfl⟩
  · rename_i hlong
    obtain ⟨lo, hi', hb, hlo, hhi⟩ := Number.bounds_of_holds hi
    have hlong : ¬ (-0x8000000000000000 ≤ i ∧ i ≤ 0x7fffffffffffffff) := mt Number.holds_long.2 hlong
    obtain ⟨rfl, hmax⟩ : k = .ulong ∧ 0x7fffffffffffffff < i := by
      cases k <;> simp [Number.kind, NumericKind.isEnumCompatible, NumericKind.bounds?] at h hb ⊢ <;>
        omega
    simpa [Outcome, mismatch, EvalError.Admissible, EvalError.isAdmissible] using hmax

theorem outcome_enumToNumber (i : Int64) (k : NumericKind) :
    Outcome (fun v => ∃ n, v = number n ∧ n.kind = k) (enumToNumber i k) := by
  have hlong : NumericKind.long.Holds i.toInt := by
    have := i.le_toInt
    have := i.toInt_lt
    exact Number.holds_long.2 (by omega)
  simp only [enumToNumber, Number.ofInt?, dif_pos hlong]
  refine .ofValue fun v hv => ?_
  obtain ⟨n, hn, rfl⟩ := map_eq_ok.1 hv
  exact ⟨n, rfl, Number.kind_of_convert hn⟩

theorem retype_eq_ok (h : v.Inhabits t) (hv : v ≠ .null) : v.retype t.underlying = .ok v := by
  by_cases hl : ∃ items, v = .list items
  · obtain ⟨items, rfl⟩ := hl
    rw [Inhabits, inhabits, ValueType.element?] at h
    cases ht : t.underlying <;> simp_all [retype]
  · have ht := h.underlying_eq hv (not_exists.1 hl)
    unfold retype
    split
    · exact absurd ⟨_, rfl⟩ hl
    · rw [ht, if_pos (underlying_type _)]

theorem outcome_numberToNumber {n : Number} {k : NumericKind} (hu : u.underlying = .number k) :
    Outcome (·.Inhabits u) (EvalError.ofValue ((n.convert k).map number)) := by
  refine .ofValue fun v hv => ?_
  obtain ⟨m, hm, rfl⟩ := map_eq_ok.1 hv
  exact (inhabits_iff_of_isScalar rfl).2 (by rw [hu, Value.type, Number.kind_of_convert hm])

end Value

/-- The conversions that a cast may be. -/
theorem ValueType.cases_of_casts {t u : ValueType} (h : t.casts u = true) :
    (∃ k l, t.underlying = .number k ∧ u.underlying = .number l) ∨
    (∃ d l, t.underlying = .enum d ∧ u.underlying = .number l) ∨
    (t.underlying = .dateTime ∧ u.underlying = .dateTimeOffset) ∨
    (∃ k d, t.underlying = .number k ∧ u.underlying = .enum d ∧ k.isEnumCompatible = true) ∨
    t.underlying = u.underlying := by
  unfold casts at h
  split at h <;> simp_all

namespace Value

variable {v a b : Value} {t u : ValueType}

theorem outcome_convert_self (h : v.Inhabits t) (hv : v ≠ .null)
    (ht : t.underlying = u.underlying) : Outcome (·.Inhabits u) (v.convert u) := by
  have hu : v.Inhabits u := by rwa [Inhabits, ← inhabits_congr hv ht]
  cases v with
  | null => exact absurd rfl hv
  | number n =>
    have hk : u.underlying = .number n.kind := hu.underlying_eq hv (by simp)
    simp only [convert, hk]
    exact outcome_numberToNumber hk
  | enum d i =>
    have hk : u.underlying = .enum d := hu.underlying_eq hv (by simp)
    simp only [convert, hk]
    exact hu
  | dateTime m =>
    have hk : u.underlying = .dateTime := hu.underlying_eq hv (by simp)
    have hr := retype_eq_ok hu hv
    simp only [convert, hk] at hr ⊢
    rw [hr]
    exact hu
  | _ =>
    simp only [convert, retype_eq_ok hu hv]
    exact hu

/-- A conversion between types that allow it has a value of its target, or is out of range. -/
theorem outcome_convert (h : v.Inhabits t) (hc : t.Converts u) :
    Outcome (·.Inhabits u) (v.convert u) := by
  by_cases hv : v = .null
  · subst hv
    simp only [convert]
    split
    · assumption
    · rfl
  rcases hc with rfl | hc
  · cases v <;> simp_all [Inhabits, inhabits, Value.type, ValueType.underlying,
      ValueType.element?, RecordType.type]
  rcases ValueType.cases_of_casts hc with ⟨k, l, ht, hu⟩ | ⟨d, l, ht, hu⟩ | ⟨ht, hu⟩ |
    ⟨k, d, ht, hu, hk⟩ | ht
  · obtain ⟨n, rfl, -⟩ := (h.number ht).resolve_left hv
    simp only [convert, hu]
    exact outcome_numberToNumber hu
  · obtain ⟨i, rfl⟩ := (h.enum ht).resolve_left hv
    simp only [convert, hu]
    refine (outcome_enumToNumber i l).imp fun v hv => ?_
    obtain ⟨n, rfl, hn⟩ := hv
    exact (inhabits_iff_of_isScalar rfl).2 (by rw [hu, Value.type, hn])
  · obtain ⟨m, rfl⟩ := (h.dateTime ht).resolve_left hv
    simp only [convert, hu]
    exact (inhabits_iff_of_isScalar rfl).2 hu
  · obtain ⟨n, rfl, rfl⟩ := (h.number ht).resolve_left hv
    simp only [convert, hu]
    refine (outcome_numberToEnum d hk).imp fun v hv => ?_
    obtain ⟨i, rfl⟩ := hv
    exact (inhabits_iff_of_isScalar rfl).2 hu
  · exact outcome_convert_self h hv ht

/-! ## Operators -/

theorem outcome_unary {op : UnaryOp} (h : v.Inhabits t) (hop : Expr.unaryAccepts op t = true) :
    Outcome (·.Inhabits t) (unary op v) := by
  cases op with
  | not =>
    obtain rfl : t = .bool := of_decide_eq_true hop
    rcases h.bool rfl with rfl | ⟨b, rfl⟩
    · exact h
    · exact rfl
  | negate =>
    obtain ⟨k, hk, -⟩ := ValueType.any_numericKind?.1 hop
    rcases h.number hk with rfl | ⟨n, rfl, hn⟩
    · exact h
    · refine (Number.outcome_arithmetic rfl (Number.kind_zeroOf _).symm).map fun m hm => ?_
      exact (inhabits_iff_of_isScalar rfl).2 (by rw [hk, Value.type, hm, Number.kind_zeroOf, hn])

theorem outcome_order (ha : a.Inhabits t) (hb : b.Inhabits t) (hnull : ¬ (a.isNull || b.isNull) = true)
    (ht : t.numericKind?.isSome = true ∨ t.isTemporal = true) :
    Outcome (fun _ => True) (order a b) := by
  have hna : a ≠ .null := by rintro rfl; simp [isNull] at hnull
  have hnb : b ≠ .null := by rintro rfl; simp [isNull] at hnull
  rcases ht with ht | ht
  · obtain ⟨k, hk⟩ := Option.isSome_iff_exists.1 ht
    have hk := ValueType.numericKind?_eq_some.1 hk
    obtain ⟨n, rfl, -⟩ := (ha.number hk).resolve_left hna
    obtain ⟨m, rfl, -⟩ := (hb.number hk).resolve_left hnb
    trivial
  · cases hu : t.underlying with
    | dateTime =>
      obtain ⟨m, rfl⟩ := (ha.dateTime hu).resolve_left hna
      obtain ⟨m', rfl⟩ := (hb.dateTime hu).resolve_left hnb
      trivial
    | dateTimeOffset =>
      obtain ⟨m, rfl⟩ := (ha.dateTimeOffset hu).resolve_left hna
      obtain ⟨m', rfl⟩ := (hb.dateTimeOffset hu).resolve_left hnb
      trivial
    | _ => simp [ValueType.isTemporal, hu] at ht

/-- A strict operator on operands of one type that it applies to. -/
theorem outcome_binary {op : BinaryOp} (ha : a.Inhabits t) (hb : b.Inhabits t)
    (hop : Expr.binaryType? op t = some u) (hstrict : ¬ (op = .and || op = .or) = true) :
    Outcome (·.Inhabits u) (a.binary op b) := by
  unfold Expr.binaryType? at hop
  by_cases harith : op.isArithmetic = true
  · rw [if_pos harith, Option.ite_none_right_eq_some] at hop
    obtain ⟨hnumber, hop⟩ := hop
    cases hop
    obtain ⟨k, hk, -⟩ := ValueType.any_numericKind?.1 hnumber
    have hequality : op.isEquality = false := by cases op <;> first | rfl | cases harith
    have hordering : op.isOrdering = false := by cases op <;> first | rfl | cases harith
    simp only [binary, hequality, hordering, Bool.false_eq_true, if_false]
    rcases ha.number hk with rfl | ⟨n, rfl, hn⟩
    · exact ha
    rcases hb.number hk with rfl | ⟨m, rfl, hm⟩
    · exact hb
    · refine (Number.outcome_arithmetic harith (by rw [hm, hn])).map fun r hr => ?_
      exact (inhabits_iff_of_isScalar rfl).2 (by rw [hk, Value.type, hr, hn])
  rw [if_neg harith] at hop
  by_cases hordering : op.isOrdering = true
  · have hequality : op.isEquality = false := by cases op <;> first | rfl | cases hordering
    rw [if_pos hordering] at hop
    simp only [binary, hequality, hordering, Bool.false_eq_true, if_false, if_true]
    split at hop
    · rename_i ht
      cases hop
      split
      · exact rfl
      · rename_i hnull
        exact (outcome_order ha hb hnull (by simpa using ht)).map fun _ _ => rfl
    · cases hop
  rw [if_neg hordering] at hop
  by_cases hequality : op.isEquality = true
  · rw [if_pos hequality] at hop
    split at hop
    · cases hop
    · cases hop
      simp only [binary, hequality, if_true]
      exact rfl
  · cases op <;> simp_all [BinaryOp.isArithmetic, BinaryOp.isOrdering, BinaryOp.isEquality]

/-! ## Access -/

theorem outcome_truth (h : v.Inhabits .bool) : Outcome (fun _ => True) v.truth := by
  rcases h.bool rfl with rfl | ⟨b, rfl⟩
  · cases h
  · trivial

theorem outcome_fieldAt (h : v.Inhabits t) {r : RecordType} (hr : t.recordType? = some r)
    {index : Nat} {name : String} (hf : r.fields[index]? = some (name, u)) :
    Outcome (·.Inhabits u) (v.fieldAt index name) := by
  rcases h.record hr with rfl | ⟨fields, rfl, hall⟩
  · exact rfl
  · obtain ⟨hlt, hget⟩ := List.getElem?_eq_some_iff.1 hf
    have hlt' : index < fields.length := by rwa [hall.length_eq]
    have hfield : fields[index]? = some fields[index] := List.getElem?_eq_getElem hlt'
    simp only [fieldAt, hfield]
    have := hall.get hlt' hlt
    simp only [List.get_eq_getElem, hget] at this
    exact this

theorem outcome_elements (h : v.Inhabits t) {element : ValueType}
    (ht : t.element? = some element) :
    Outcome (fun items => ∀ x ∈ items, x.Inhabits element) v.elements := by
  rcases h.list ht with rfl | ⟨items, rfl, hall⟩
  · exact rfl
  · exact hall

end Value

/-! ## Failures -/

/-- Whether an operation on values fails in this way. -/
def EvalError.isOperational : EvalError → Bool
  | divisionByZero | overflow .. | nullReference _ | typeMismatch .. | conversion _ => true
  | unboundParameter _ | arity .. | function .. | panic _ => false

/-- The result is not a failure of anything but an operation on values. -/
def Operational {α : Type} (r : Except EvalError α) : Prop := ∀ e, r = .error e → e.isOperational = true

namespace Operational

variable {α β : Type} {r : Except EvalError α}

theorem ok (a : α) : Operational (.ok a) := fun _ h => nomatch h

theorem error {e : EvalError} (h : e.isOperational = true) : Operational (.error e : Except EvalError α) := by
  intro e' he
  cases he
  exact h

theorem map (f : α → β) (hr : Operational r) : Operational (r.map f) := by
  cases r with
  | error e => exact error (hr e rfl)
  | ok a => exact ok (f a)

theorem ofValue (r : Except ValueError α) : Operational (EvalError.ofValue r) := by
  cases r with
  | error e => exact error rfl
  | ok a => exact ok a

end Operational

theorem Number.operational_arithmetic (op : BinaryOp) (a b : Number) : Operational (Number.arithmetic op a b) := by
  unfold Number.arithmetic
  dsimp only
  by_cases hkind : b.kind ≠ a.kind
  · rw [if_pos hkind]
    exact .error rfl
  rw [if_neg hkind]
  split
  · split
    · exact .error rfl
    · split
      · exact .ok _
      · exact .error rfl
      · exact .error rfl
  · split
    · exact .ok _
    · exact .error rfl
  · split
    · exact .ok _
    · exact .error rfl
  · split
    · exact .error rfl
    · split
      · split
        · exact .ok _
        · exact .error rfl
      · exact .error rfl
  · exact .error rfl

namespace Value

variable (v w : Value)

theorem operational_truth : Operational v.truth := by
  unfold truth
  split
  · exact .ok _
  · exact .error rfl

theorem operational_fieldAt (index : Nat) (name : String) : Operational (v.fieldAt index name) := by
  unfold fieldAt
  split
  · split
    · exact .ok _
    · exact .error rfl
  · exact .error rfl
  · exact .error rfl

theorem operational_numberToEnum (d : EnumType) (n : Number) : Operational (numberToEnum d n) := by
  unfold numberToEnum
  split
  · split
    · exact .ok _
    · exact .error rfl
  · exact .error rfl

theorem operational_enumToNumber (value : Int64) (kind : NumericKind) : Operational (enumToNumber value kind) := by
  unfold enumToNumber
  split
  · exact .ofValue _
  · exact .error rfl

theorem operational_retype (t : ValueType) : Operational (v.retype t) := by
  unfold retype
  split
  · exact .ok _
  · split
    · exact .ok _
    · exact .error rfl

theorem operational_convert (t : ValueType) : Operational (v.convert t) := by
  unfold convert
  split
  · split
    · exact .ok _
    · exact .error rfl
  · exact .ofValue _
  · exact operational_numberToEnum _ _
  · exact operational_enumToNumber _ _
  · exact .ok _
  · exact .ok _
  · exact operational_retype _ _

theorem operational_unary (op : UnaryOp) : Operational (v.unary op) := by
  unfold unary
  split
  · exact .ok _
  · exact .ok _
  · exact (Number.operational_arithmetic _ _ _).map _
  · exact .error rfl
  · exact .error rfl

theorem operational_order : Operational (v.order w) := by
  unfold order
  split
  · exact .ok _
  · exact .ok _
  · exact .ok _
  · exact .error rfl

theorem operational_binary (op : BinaryOp) : Operational (v.binary op w) := by
  unfold binary
  split
  · exact .ok _
  split
  · split
    · exact .ok _
    · exact (operational_order v w).map _
  split
  · exact .ok _
  split
  · exact (Number.operational_arithmetic _ _ _).map _
  · exact .error rfl

theorem operational_elements : Operational v.elements := by
  unfold elements
  split
  · exact .ok _
  · exact .error rfl
  · exact .error rfl

end Value

end Parlance
