import Parlance.Proofs.Environment
import Parlance.Proofs.Orders
import Parlance.Proofs.TruthValues

/-!
# Comparisons from either side

A comparison of filters has a mirror image: the other comparison of the operands in the other order. No
stage prefers a side. The conversions of the operands are the same the other way round
(`Pairing.implicit_swap`, `Pairing.enumNumber_swap`, `Pairing.enumString_swap`), and so are the orders of
numbers, doubles and NaN among them, and of moments (`Number.compare?_swap`). So the mirror image is accepted
with the same operands, and comes to the same result (`comparisons_mirrored`), with two exceptions. An
operand that changes the environment is seen by the operand after it, and where two values have no order
because they are no numbers or moments of one sort, the failure shows the left one
(`comparisons_not_mirrored`).
-/

namespace Parlance

/-! ## Operators -/

namespace BinaryOp

/-- Equality, its negation and the comparisons by order. -/
def isComparison (op : BinaryOp) : Bool := op.isEquality || op.isOrdering

/-- The operator that says the same of two operands in the other order. -/
def flip : BinaryOp → BinaryOp
  | greater => less
  | greaterOrEqual => lessOrEqual
  | less => greater
  | lessOrEqual => greaterOrEqual
  | op => op

variable (op : BinaryOp)

@[simp] theorem isEquality_flip : op.flip.isEquality = op.isEquality := by
  cases op <;> rfl

@[simp] theorem isOrdering_flip : op.flip.isOrdering = op.isOrdering := by
  cases op <;> rfl

@[simp] theorem isComparison_flip : op.flip.isComparison = op.isComparison := by
  cases op <;> rfl

variable {op}

theorem flip_of_isEquality (h : op.isEquality = true) : op.flip = op := by
  cases op <;> first | rfl | cases h

theorem satisfies_flip (h : op.isOrdering = true) (o : Ordering) :
    Value.satisfies op.flip o.swap = Value.satisfies op o := by
  cases op <;> first | cases h; done | (cases o <;> rfl)

theorem not_connective_of_isComparison (h : op.isComparison = true) : (op = .and || op = .or) = false :=
  not_connective (.inr (Bool.or_eq_true_iff.1 h))

end BinaryOp

/-! ## Values -/

namespace Value

/-- A comparison by order has a result: for null, and for two numbers or two moments of one sort. -/
def comparable : Value → Value → Bool
  | null, _ | _, null => true
  | number _, number _ | dateTime _, dateTime _ | dateTimeOffset _, dateTimeOffset _ => true
  | _, _ => false

variable {v w : Value} {op : BinaryOp} {t : ValueType}

theorem comparable_comm (v w : Value) : v.comparable w = w.comparable v := by
  cases v <;> cases w <;> rfl

/-- Values of one type that has an order have one. -/
theorem comparable_of_inhabits (ht : t.numericKind?.isSome = true ∨ t.isTemporal = true) (hv : v.Inhabits t)
    (hw : w.Inhabits t) : v.comparable w = true := by
  by_cases hnull : v = .null ∨ w = .null
  · rcases hnull with rfl | rfl
    · rfl
    · rw [comparable_comm]
      rfl
  obtain ⟨hvn, hwn⟩ := not_or.1 hnull
  rcases ht with ht | ht
  · obtain ⟨k, hk⟩ := Option.isSome_iff_exists.1 ht
    have hk := ValueType.numericKind?_eq_some.1 hk
    obtain ⟨n, rfl, -⟩ := (hv.number hk).resolve_left hvn
    obtain ⟨m, rfl, -⟩ := (hw.number hk).resolve_left hwn
    rfl
  · cases hu : t.underlying with
    | dateTime =>
      obtain ⟨m, rfl⟩ := (hv.dateTime hu).resolve_left hvn
      obtain ⟨n, rfl⟩ := (hw.dateTime hu).resolve_left hwn
      rfl
    | dateTimeOffset =>
      obtain ⟨m, rfl⟩ := (hv.dateTimeOffset hu).resolve_left hvn
      obtain ⟨n, rfl⟩ := (hw.dateTimeOffset hu).resolve_left hwn
      rfl
    | _ => simp [ValueType.isTemporal, hu] at ht

theorem order_swap (h : v.comparable w = true) (hv : v.isNull = false) (hw : w.isNull = false) :
    ∃ o, v.order w = .ok o ∧ w.order v = .ok (o.map .swap) := by
  cases v <;> cases w <;> first | cases h; done | cases hv; done | cases hw; done | skip
  · exact ⟨_, rfl, by rw [Number.compare?_swap]; rfl⟩
  · exact ⟨_, rfl, by rw [Option.map_some, Calendar.WallTime.compare_swap]; rfl⟩
  · exact ⟨_, rfl, by rw [Option.map_some, Calendar.OffsetMoment.compare_swap]; rfl⟩

/-- The mirror image of a comparison has the same result. -/
theorem binary_flip (hop : op.isComparison = true) (h : op.isOrdering = true → v.comparable w = true) :
    w.binary op.flip v = v.binary op w := by
  unfold binary
  by_cases hequality : op.isEquality = true
  · rw [op.isEquality_flip, if_pos hequality, if_pos hequality, BinaryOp.flip_of_isEquality hequality,
      equals_comm]
  have hordering : op.isOrdering = true := (Bool.or_eq_true_iff.1 hop).resolve_left hequality
  rw [op.isEquality_flip, if_neg hequality, if_neg hequality, op.isOrdering_flip, if_pos hordering,
    if_pos hordering, Bool.or_comm]
  by_cases hnull : (v.isNull || w.isNull) = true
  · rw [if_pos hnull, if_pos hnull]
  rw [if_neg hnull, if_neg hnull]
  obtain ⟨hv, hw⟩ := Bool.or_eq_false_iff.1 (Bool.eq_false_iff.2 hnull)
  obtain ⟨o, ho, hswap⟩ := order_swap (h hordering) hv hw
  rw [ho, hswap]
  cases o with
  | none => rfl
  | some o => exact congrArg (fun b => Except.ok (bool b)) (BinaryOp.satisfies_flip hordering o)

/-- Where there is no order the left value is shown. -/
theorem binary_of_not_comparable (hop : op.isOrdering = true) (h : v.comparable w = false) :
    v.binary op w = mismatch .numbersOrDates v := by
  have hequality : op.isEquality = false := by cases op <;> first | rfl | cases hop
  unfold binary
  rw [hequality, hop, if_neg Bool.false_ne_true, if_pos rfl]
  cases v <;> cases w <;> first | rfl | cases h

theorem binary_notEqual (v w : Value) : v.binary .notEqual w = v.binary .equal w >>= unary .not := by
  have hequal : v.binary .equal w = .ok (bool (v.equals w == true)) := rfl
  have hnotEqual : v.binary .notEqual w = .ok (bool (v.equals w == false)) := rfl
  rw [hequal, hnotEqual]
  cases v.equals w <;> rfl

end Value

/-! ## Operands -/

namespace Pairing

/-- The operands in the other order. -/
def swap (p : Pairing) : Pairing := ⟨p.done, p.right, p.left⟩

/-- The other side. -/
def EnumSide.swap : EnumSide → EnumSide
  | left d => right d
  | right d => left d

variable (l r : Expr)

theorem implicit_swap : implicit r l = (implicit l r).swap := by
  unfold implicit
  rw [ValueType.common?_comm r.type]
  by_cases htype : l.type = r.type
  · rw [if_pos htype, if_pos htype.symm, swap]
  · rw [if_neg htype, if_neg (Ne.symm htype)]
    cases l.type.common? r.type <;> rfl

theorem enumSide?_swap : enumSide? r l = (enumSide? l r).map EnumSide.swap := by
  unfold enumSide?
  cases l.type.enumType? <;> cases r.type.enumType? <;> rfl

theorem enumNumber_swap : enumNumber r l = (enumNumber l r).swap := by
  unfold enumNumber
  rw [enumSide?_swap l r]
  by_cases htype : l.type = r.type
  · rw [if_pos htype, if_pos htype.symm, swap]
  rw [if_neg htype, if_neg (Ne.symm htype)]
  rcases enumSide? l r with _ | d | d
  · rfl
  · dsimp only [Option.map, EnumSide.swap]
    cases numberAsEnum? r l.type with
    | none => rfl
    | some x => exact implicit_swap l x
  · dsimp only [Option.map, EnumSide.swap]
    cases numberAsEnum? l r.type with
    | none => rfl
    | some x => exact implicit_swap x r

theorem enumString_swap (ignoreCase : Bool) :
    enumString ignoreCase r l = (enumString ignoreCase l r).map swap := by
  unfold enumString
  rw [enumSide?_swap l r]
  by_cases htype : l.type = r.type
  · rw [if_pos htype, if_pos htype.symm]
    rfl
  rw [if_neg htype, if_neg (Ne.symm htype)]
  rcases enumSide? l r with _ | d | d
  · rfl
  · dsimp only [Option.map, EnumSide.swap]
    split
    · cases r.enumConstant d l.type ignoreCase with
      | error e => rfl
      | ok x => exact congrArg Except.ok (implicit_swap l x)
    · rfl
  · dsimp only [Option.map, EnumSide.swap]
    split
    · cases l.enumConstant d r.type ignoreCase with
      | error e => rfl
      | ok x => exact congrArg Except.ok (implicit_swap x r)
    · rfl

/-- Takes an integral operand or a constant text as the enum of the other side. -/
def asEnum (l r : Expr) : Except ConversionError Pairing :=
  if (enumNumber l r).done then .ok (enumNumber l r)
  else enumString true (enumNumber l r).left (enumNumber l r).right

theorem asEnum_swap : asEnum r l = (asEnum l r).map swap := by
  unfold asEnum
  rw [enumNumber_swap l r]
  change (if (enumNumber l r).done then Except.ok (enumNumber l r).swap
    else enumString true (enumNumber l r).right (enumNumber l r).left) = _
  split
  · rfl
  · exact enumString_swap ..

end Pairing

namespace Expr

/-- Constants have the property, and conversions keep it. -/
structure Kept (P : Expr → Prop) : Prop where
  constant : ∀ v t, P (.constant v t)
  converted : ∀ e t, P e → P (e.converted t)

/-- Evaluation from an environment leaves it as it was. -/
def Still (env : List Value) (e : Expr) : Prop := (e.evaluate.run env).2 = env

/-- What each of the expressions comes to does not depend on whether the other one is evaluated before it. -/
def Independent (env : List Value) (l r : Expr) : Prop :=
  r.value (l.evaluate.run env).2 = r.value env ∧ l.value (r.evaluate.run env).2 = l.value env

variable {P : Expr → Prop} {env : List Value} {e l r : Expr} {op : BinaryOp} {t : ValueType}

theorem Still.means (h : e.Still env) : Eval.Means env e.evaluate (e.value env) := Prod.ext rfl h

theorem WellScoped.still (h : e.WellScoped env.length) : e.Still env :=
  congrArg Prod.snd (h.means (.start env) rfl)

theorem kept_still (env : List Value) : Kept (Still env) where
  constant v t := by
    rw [Still, evaluate]
    rfl
  converted e t h := by
    unfold converted
    split
    · exact h
    split
    · rw [Still, evaluate]
      rfl
    · rw [Still, evaluate]
      exact congrArg Prod.snd (h.means.bind fun v => .ofExcept (v.convert t))

theorem Kept.enumConstant (hP : Kept P) {d : EnumType} {ignoreCase : Bool} {x : Expr}
    (h : e.enumConstant d t ignoreCase = .ok x) : P x := by
  unfold Expr.enumConstant at h
  split at h
  · cases h
  split at h
  · cases h
  · split at h
    · cases h
      exact hP.converted _ t (hP.constant _ _)
    · cases h
  · cases h
    exact hP.converted _ _ (hP.constant _ _)
  · cases h

theorem Still.independent (hl : l.Still env) (hr : r.Still env) : Independent env l r :=
  ⟨congrArg r.value hl, congrArg l.value hr⟩

theorem value_binary (hop : (op = .and || op = .or) = false) :
    (Expr.binary op l r t).value env =
      l.value env >>= fun a => r.value (l.evaluate.run env).2 >>= fun b => a.binary op b := by
  unfold value
  rw [evaluate_binary hop, evaluatePair]
  simp only [bind_assoc, pure_bind, Eval.run_bind]
  rcases l.evaluate.run env with ⟨e | a, after⟩
  · rfl
  · dsimp only
    rcases r.evaluate.run after with ⟨e | b, last⟩ <;> rfl

end Expr

namespace Pairing

variable {P : Expr → Prop} {l r : Expr}

theorem kept_implicit (hP : Expr.Kept P) (hl : P l) (hr : P r) :
    P (implicit l r).left ∧ P (implicit l r).right := by
  obtain ⟨t, -, heq⟩ | heq := implicit_cases l r
  · rw [heq]
    exact ⟨hP.converted l t hl, hP.converted r t hr⟩
  · rw [heq]
    exact ⟨hl, hr⟩

theorem kept_numberAsEnum? (hP : Expr.Kept P) {number x : Expr} {t : ValueType} (hnumber : P number)
    (h : numberAsEnum? number t = some x) : P x := by
  unfold numberAsEnum? at h
  split at h
  · split at h
    · cases h
      exact hP.converted number _ hnumber
    · cases h
  · cases h

theorem kept_enumNumber (hP : Expr.Kept P) (hl : P l) (hr : P r) :
    P (enumNumber l r).left ∧ P (enumNumber l r).right := by
  unfold enumNumber
  split
  · exact ⟨hl, hr⟩
  split
  · split
    · rename_i hx
      exact kept_implicit hP hl (kept_numberAsEnum? hP hr hx)
    · exact ⟨hl, hr⟩
  · split
    · rename_i hx
      exact kept_implicit hP (kept_numberAsEnum? hP hl hx) hr
    · exact ⟨hl, hr⟩
  · exact ⟨hl, hr⟩

theorem kept_enumString (hP : Expr.Kept P) {ignoreCase : Bool} {p : Pairing} (hl : P l) (hr : P r)
    (h : enumString ignoreCase l r = .ok p) : P p.left ∧ P p.right := by
  unfold enumString at h
  split at h
  · cases h
    exact ⟨hl, hr⟩
  split at h
  · split at h
    · obtain ⟨x, hx, rfl⟩ := map_eq_ok.1 h
      exact kept_implicit hP hl (hP.enumConstant hx)
    · cases h
      exact ⟨hl, hr⟩
  · split at h
    · obtain ⟨x, hx, rfl⟩ := map_eq_ok.1 h
      exact kept_implicit hP (hP.enumConstant hx) hr
    · cases h
      exact ⟨hl, hr⟩
  · cases h
    exact ⟨hl, hr⟩

theorem kept_asEnum (hP : Expr.Kept P) {p : Pairing} (hl : P l) (hr : P r) (h : asEnum l r = .ok p) :
    P p.left ∧ P p.right := by
  obtain ⟨hl, hr⟩ := kept_enumNumber hP hl hr
  unfold asEnum at h
  split at h
  · cases h
    exact ⟨hl, hr⟩
  · exact kept_enumString hP hl hr h

end Pairing

/-! ## Comparisons -/

namespace Expr

/-- The mirror image of a comparison. -/
def mirrored : Expr → Expr
  | .binary op l r t => .binary op.flip r l t
  | e => e

/-- The comparison of the same operands for inequality. -/
def opposed : Expr → Expr
  | .binary _ l r t => .binary .notEqual l r t
  | e => e

variable {op : BinaryOp} {l r x : Expr} {t : ValueType} {env : List Value} {a b : Value}

theorem binary?_flip (op : BinaryOp) (l r : Expr) :
    (binary? op.flip r l).toOption = (binary? op l r).toOption.map mirrored := by
  have htypes : binaryType? op.flip r.type = binaryType? op r.type := by
    unfold binaryType?
    cases op <;> rfl
  unfold binary?
  rw [htypes]
  by_cases htype : l.type = r.type
  · rw [if_pos htype, if_pos htype.symm, htype]
    cases binaryType? op r.type <;> rfl
  · rw [if_neg htype, if_neg (Ne.symm htype)]
    rfl

theorem binary?_opposed (l r : Expr) :
    (binary? .notEqual l r).toOption = (binary? .equal l r).toOption.map opposed := by
  have htypes : binaryType? .notEqual l.type = binaryType? .equal l.type := rfl
  unfold binary?
  rw [htypes]
  split <;> rfl

theorem binary?_comparison (hop : op.isComparison = true) (h : binary? op l r = .ok x) :
    x = .binary op l r .bool ∧ l.type = r.type ∧
      (op.isOrdering = true → l.type.numericKind?.isSome = true ∨ l.type.isTemporal = true) := by
  unfold binary? at h
  split at h
  · rename_i t ht
    cases h
    rw [Option.ite_none_right_eq_some] at ht
    obtain ⟨htype, ht⟩ := ht
    have harithmetic : op.isArithmetic = false := by cases op <;> first | rfl | cases hop
    unfold binaryType? at ht
    rw [harithmetic, if_neg Bool.false_ne_true] at ht
    by_cases hordering : op.isOrdering = true
    · rw [if_pos hordering, Option.ite_none_right_eq_some] at ht
      obtain ⟨horder, ht⟩ := ht
      cases ht
      exact ⟨rfl, htype, fun _ => Bool.or_eq_true_iff.1 horder⟩
    · have hequality : op.isEquality = true := (Bool.or_eq_true_iff.1 hop).resolve_right hordering
      rw [if_neg hordering, if_pos hequality, Option.ite_none_left_eq_some] at ht
      obtain ⟨-, ht⟩ := ht
      cases ht
      exact ⟨rfl, htype, fun h => absurd h hordering⟩
  · cases h

/-- The comparison for inequality is the negation of the one for equality, in every environment. -/
theorem evaluate_opposed :
    (Expr.binary .notEqual l r t).evaluate = (unary .not (.binary .equal l r t) t).evaluate := by
  have hofExcept (r : Except EvalError Value) :
      (Eval.ofExcept r >>= fun v => Eval.ofExcept (v.unary .not)) = Eval.ofExcept (r >>= Value.unary .not) := by
    cases r <;> rfl
  rw [evaluate, evaluate_binary rfl, evaluate_binary rfl, bind_assoc]
  simp only [hofExcept, Value.binary_notEqual]

/-- The values of two operands have an order, where both have a value. -/
def Ordered (env : List Value) (l r : Expr) : Prop :=
  ∀ a b, l.value env = .ok a → r.value env = .ok b → a.comparable b = true

/-- How a comparison of two operands and its mirror image come out. -/
structure Mirrors (op : BinaryOp) (l r : Expr) (env : List Value) : Prop where
  alike : (op.isOrdering = true → Ordered env l r) →
    (binary op.flip r l .bool).value env = (binary op l r .bool).value env
  unordered : op.isOrdering = true → ∀ a b, l.value env = .ok a → r.value env = .ok b →
    a.comparable b = false →
      (binary op l r .bool).value env = Value.mismatch .numbersOrDates a ∧
      (binary op.flip r l .bool).value env = Value.mismatch .numbersOrDates b
  typed : (∀ a, l.value env = .ok a → a.Inhabits l.type) →
    (∀ b, r.value env = .ok b → b.Inhabits r.type) →
      (binary op.flip r l .bool).value env = (binary op l r .bool).value env

theorem value_flip (hop : op.isComparison = true) (h : Independent env l r)
    (hone : (∃ a, l.value env = .ok a) ∨ ∃ b, r.value env = .ok b)
    (hordered : op.isOrdering = true → Ordered env l r) :
    (binary op.flip r l t).value env = (binary op l r t).value env := by
  rw [value_binary (BinaryOp.not_connective_of_isComparison hop), h.1,
    value_binary (BinaryOp.not_connective_of_isComparison (op.isComparison_flip.trans hop)), h.2]
  cases ha : l.value env with
  | error e =>
    obtain ⟨b, hb⟩ := hone.resolve_left (by rw [ha]; nofun)
    rw [hb]
    rfl
  | ok a =>
    cases hb : r.value env with
    | error e => rfl
    | ok b => exact Value.binary_flip hop fun hordering => hordered hordering a b ha hb

theorem value_not_comparable (hop : op.isOrdering = true) (h : Independent env l r)
    (ha : l.value env = .ok a) (hb : r.value env = .ok b) (hab : a.comparable b = false) :
    (binary op l r t).value env = Value.mismatch .numbersOrDates a := by
  have hstrict := BinaryOp.not_connective_of_isComparison (Bool.or_eq_true_iff.2 (.inr hop))
  rw [value_binary hstrict, h.1, ha, hb, ← Value.binary_of_not_comparable hop hab]
  rfl

theorem mirrors (hop : op.isComparison = true) (htype : l.type = r.type)
    (hordering : op.isOrdering = true → l.type.numericKind?.isSome = true ∨ l.type.isTemporal = true)
    (h : Independent env l r) (hone : (∃ a, l.value env = .ok a) ∨ ∃ b, r.value env = .ok b) :
    Mirrors op l r env where
  alike := value_flip hop h hone
  unordered hop a b ha hb hab := ⟨value_not_comparable hop h ha hb hab,
    value_not_comparable (op.isOrdering_flip.trans hop) h.symm hb ha (b.comparable_comm a ▸ hab)⟩
  typed hl hr := value_flip hop h hone fun hop a b ha hb =>
    Value.comparable_of_inhabits (hordering hop) (hl a ha) (htype ▸ hr b hb)

end Expr

theorem toOption_mapError {ε δ α : Type} (f : ε → δ) (r : Except ε α) :
    (r.mapError f).toOption = r.toOption := by
  cases r <;> rfl

namespace Filter

/-- The operands of a comparison, after their conversions. -/
def operands (op : BinaryOp) (l r : Expr) : Except ConversionError Pairing :=
  let pair := Pairing.implicit l r
  if op.isEquality then Pairing.asEnum pair.left pair.right else .ok pair

/-- The rule of a comparison. -/
def ruleOf : BinaryOp → String
  | .equal => "EQ"
  | .notEqual => "NE"
  | .greater => "GT"
  | .greaterOrEqual => "GE"
  | .less => "LT"
  | .lessOrEqual => "LE"
  | _ => ""

/-- What the rule with a name builds of the text of its token and of two operands, if it accepts them. -/
def built? (name text : String) (l r : Expr) : Option Expr :=
  match rules.find? (·.name == name) with
  | some ⟨_, _, _, .operator _ _ build⟩ => (build text [l, r]).toOption
  | _ => none

variable {op : BinaryOp} {l r x : Expr} {pair : Pairing} {P : Expr → Prop}

theorem toOption_plain (op : BinaryOp) (l r : Expr) :
    (plain op l r).toOption = (Expr.binary? op l r).toOption :=
  toOption_mapError ..

theorem toOption_equality (op : BinaryOp) (l r : Expr) :
    (equality op l r).toOption =
      (Pairing.asEnum l r).toOption.bind fun p => (Expr.binary? op p.left p.right).toOption := by
  have hequality : equality op l r = (Pairing.asEnum l r).mapError .conversion >>= fun p =>
      Refusal.ofExpr (Expr.binary? op p.left p.right) := by
    unfold equality Pairing.asEnum
    dsimp only
    split <;> rfl
  rw [hequality, toOption_bind, toOption_mapError]
  exact congrArg _ (funext fun p => toOption_mapError ..)

theorem built?_ruleOf (hop : op.isComparison = true) (text : String) (l r : Expr) :
    built? (ruleOf op) text l r =
      (operands op l r).toOption.bind fun p => (Expr.binary? op p.left p.right).toOption := by
  cases op with
  | equal | notEqual => exact toOption_equality ..
  | greater | greaterOrEqual | less | lessOrEqual => exact toOption_plain ..
  | _ => cases hop

theorem operands_flip (op : BinaryOp) (l r : Expr) :
    operands op.flip r l = (operands op l r).map Pairing.swap := by
  unfold operands
  rw [op.isEquality_flip, Pairing.implicit_swap l r]
  split
  · exact Pairing.asEnum_swap ..
  · rfl

theorem kept_operands (hP : Expr.Kept P) (hl : P l) (hr : P r) (h : operands op l r = .ok pair) :
    P pair.left ∧ P pair.right := by
  obtain ⟨hl, hr⟩ := Pairing.kept_implicit hP hl hr
  unfold operands at h
  dsimp only at h
  split at h
  · exact Pairing.kept_asEnum hP hl hr h
  · cases h
    exact ⟨hl, hr⟩

theorem built?_flip (hop : op.isComparison = true) (text : String) (l r : Expr) :
    built? (ruleOf op.flip) text r l = (built? (ruleOf op) text l r).map .mirrored := by
  rw [built?_ruleOf (op.isComparison_flip.trans hop), built?_ruleOf hop, operands_flip]
  cases operands op l r with
  | error e => rfl
  | ok pair => exact Expr.binary?_flip op pair.left pair.right

theorem built?_opposed (text : String) (l r : Expr) :
    built? (ruleOf .notEqual) text l r = (built? (ruleOf .equal) text l r).map .opposed := by
  have hoperands : operands .notEqual l r = operands .equal l r := rfl
  rw [built?_ruleOf rfl, built?_ruleOf rfl, hoperands]
  cases operands .equal l r with
  | error e => rfl
  | ok pair => exact Expr.binary?_opposed pair.left pair.right

theorem exists_operands (hop : op.isComparison = true) {text : String}
    (h : built? (ruleOf op) text l r = some x) :
    ∃ pair, operands op l r = .ok pair ∧ x = .binary op pair.left pair.right .bool ∧
      pair.left.type = pair.right.type ∧ (op.isOrdering = true →
        pair.left.type.numericKind?.isSome = true ∨ pair.left.type.isTemporal = true) := by
  rw [built?_ruleOf hop] at h
  obtain ⟨pair, hpair, hx⟩ := Option.bind_eq_some_iff.1 h
  exact ⟨pair, toOption_eq_some.1 hpair, Expr.binary?_comparison hop (toOption_eq_some.1 hx)⟩

end Filter

/-- The mirror image of a comparison is accepted exactly if the comparison is, with the same operands after
their conversions, and inequality exactly if equality is, of which it is the negation. Where neither operand
changes what the other one comes to, as operands that leave the environment alone do not, and no more than
one of them fails, mirror images come to the same, unless they ask for the order of values that have none:
then each shows its own left value. Values of the types of the operands are never such. -/
theorem comparisons_mirrored {op : BinaryOp} (hop : op.isComparison = true) (text : String) (l r : Expr) :
    Filter.built? (Filter.ruleOf op.flip) text r l =
      (Filter.built? (Filter.ruleOf op) text l r).map .mirrored ∧
    Filter.built? (Filter.ruleOf .notEqual) text l r =
      (Filter.built? (Filter.ruleOf .equal) text l r).map .opposed ∧
    (∀ x, Filter.built? (Filter.ruleOf .equal) text l r = some x →
      x.opposed.evaluate = (Expr.unary .not x .bool).evaluate) ∧
    ∀ x, Filter.built? (Filter.ruleOf op) text l r = some x → ∃ l' r', x = .binary op l' r' .bool ∧
      (∀ env, l.Still env → r.Still env → Expr.Independent env l' r') ∧
      ∀ env, Expr.Independent env l' r' →
        ((∃ a, l'.value env = .ok a) ∨ ∃ b, r'.value env = .ok b) → Expr.Mirrors op l' r' env := by
  refine ⟨Filter.built?_flip hop text l r, Filter.built?_opposed text l r, fun x hx => ?_, fun x hx => ?_⟩
  · obtain ⟨pair, -, rfl, -⟩ := Filter.exists_operands rfl hx
    exact Expr.evaluate_opposed
  obtain ⟨pair, hpair, rfl, htype, hordering⟩ := Filter.exists_operands hop hx
  refine ⟨pair.left, pair.right, rfl, fun env hl hr => ?_, fun env => Expr.mirrors hop htype hordering⟩
  obtain ⟨hl, hr⟩ := Filter.kept_operands (Expr.kept_still env) hl hr hpair
  exact hl.independent hr

/-- A whole number that may be null. -/
def amount : Expr := .parameter 0 (some "amount") (.nullable (.number .int))

/-- A decimal. -/
def limit : Expr := .parameter 1 (some "limit") (.number .decimal)

/-- A hundred and three, and seven sixteenths less. -/
def closeNumbers : List Value :=
  [.number (.integral .int 103 (by decide)), .number (.decimal ⟨false, 1025625, 4, by decide, by decide⟩)]

/-- The amount is over the limit, and the limit is under the amount. -/
theorem comparisons_mirrored_amount :
    ∃ x, Filter.built? "GT" "gt" amount limit = some x ∧
      Filter.built? "LT" "gt" limit amount = some x.mirrored ∧
      x.value closeNumbers = .ok (.bool true) ∧ x.mirrored.value closeNumbers = .ok (.bool true) := by
  have hgreater : BinaryOp.greater.isComparison = true := rfl
  obtain ⟨hflip, -, -, hruns⟩ := comparisons_mirrored hgreater "gt" amount limit
  have hbuilt : (Filter.built? "GT" "gt" amount limit).isSome = true := rfl
  obtain ⟨x, hx⟩ := Option.isSome_iff_exists.1 hbuilt
  refine ⟨x, hx, hflip.trans (congrArg (Option.map Expr.mirrored) hx), ?_⟩
  obtain ⟨l', r', hoperands, hstill, hmirrors⟩ := hruns x hx
  cases hx
  cases hoperands
  have hindependent := hstill closeNumbers Expr.WellScoped.parameter.still Expr.WellScoped.parameter.still
  have halike := (hmirrors closeNumbers hindependent (.inl ⟨_, rfl⟩)).alike fun _ a b ha hb => by
    cases ha
    cases hb
    rfl
  exact ⟨rfl, halike.trans rfl⟩

/-- Whether any of one flag is true, which leaves that flag in the slot of the first parameter. -/
def overwriting : Expr :=
  .collection .any (.list [.ofValue (.bool true)]) (some 0) (some (.parameter 0 none .bool))

/-- The first parameter, as a flag. -/
def firstFlag : Expr := .parameter 0 none .bool

/-- The parameter in a slot, as a whole number. -/
def wholeNumber (slot : Nat) : Expr := .parameter slot none (.number .int)

/-- An operand that changes the environment is seen by the one after it, and of two values that have no order
the left one is shown; in both cases neither operand fails. -/
theorem comparisons_not_mirrored :
    (∃ x y, Filter.built? "EQ" "eq" overwriting firstFlag = some x ∧
      Filter.built? "EQ" "eq" firstFlag overwriting = some y ∧
      overwriting.value [.bool false] = .ok (.bool true) ∧
      firstFlag.value [.bool false] = .ok (.bool false) ∧
      x.value [.bool false] = .ok (.bool true) ∧ y.value [.bool false] = .ok (.bool false)) ∧
    ∃ x y, Filter.built? "GT" "gt" (wholeNumber 0) (wholeNumber 1) = some x ∧
      Filter.built? "LT" "lt" (wholeNumber 1) (wholeNumber 0) = some y ∧
      let env : List Value := [.string "a", .bool true]
      (wholeNumber 0).value env = .ok (.string "a") ∧ (wholeNumber 1).value env = .ok (.bool true) ∧
      x.value env = .error (.typeMismatch .numbersOrDates (.string "a")) ∧
      y.value env = .error (.typeMismatch .numbersOrDates (.bool true)) :=
  ⟨⟨_, _, rfl, rfl, rfl, rfl, rfl, rfl⟩, _, _, rfl, rfl, rfl, rfl, rfl, rfl⟩

end Parlance
