import Parlance.Proofs.ExactNumbers
import Parlance.Proofs.InPlace

/-!
# Truth values

An expression is made a truth value if its type is `bool`, with or without null, or the type of null: with
`bool` no other type has a common type (`ValueType.common?_bool`). It stays as it is, or it is compared with
true, over nullable truth values (`Expr.toBoolean?_eq_some`). Either way the value is whether the expression
is true: null is read as false, and a failure stays the same failure (`truth_values_read`).
-/

namespace Parlance

/-! ## Values -/

namespace Value

/-- Whether the value is true; null is not. -/
def isTrue (v : Value) : Bool := v matches bool true

@[simp] theorem isTrue_bool (b : Bool) : (bool b).isTrue = b := by
  cases b <;> rfl

theorem equals_true (v : Value) : v.equals (bool true) = v.isTrue := by
  cases v with
  | bool b => cases b <;> rfl
  | _ => rfl

theorem binary_equal_true (v : Value) : v.binary .equal (bool true) = .ok (bool v.isTrue) := by
  have hequality : BinaryOp.equal.isEquality = true := rfl
  unfold binary
  rw [if_pos hequality, equals_true]
  cases v.isTrue <;> rfl

end Value

/-! ## Types -/

namespace ValueType

variable {t u : ValueType}

/-- The types that are read as truth values though they are not `bool`. -/
def IsTruthOrNull (t : ValueType) : Prop := t = .nullable .bool ∨ t = .null

theorem eq_of_underlying_bool (h : t.underlying = .bool) : t = .bool ∨ t = .nullable .bool := by
  cases t with
  | nullable inner => exact .inr (congrArg nullable h)
  | _ => exact .inl h

/-- No other type has a common type with `bool`. -/
theorem common?_bool : t.common? .bool = some u ↔
    t = .bool ∧ u = .bool ∨ t.IsTruthOrNull ∧ u = .nullable .bool := by
  constructor
  · intro h
    unfold common? at h
    split at h
    · rename_i ht
      cases h
      exact .inl ⟨ht, ht⟩
    rename_i hbool
    split at h
    · rename_i ht
      cases h
      exact .inr ⟨.inr ht, rfl⟩
    split at h
    · contradiction
    split at h
    · rename_i hunderlying
      cases h
      have ht := (eq_of_underlying_bool hunderlying).resolve_left hbool
      subst ht
      exact .inr ⟨.inl rfl, rfl⟩
    · dsimp only at h
      obtain ⟨joined, hjoined, -⟩ := Option.map_eq_some_iff.1 h
      split at hjoined <;> contradiction
  · rintro (⟨rfl, rfl⟩ | ⟨rfl | rfl, rfl⟩) <;> rfl

end ValueType

/-- A value of one of these types is null or a truth value. -/
theorem Value.Inhabits.nullable_bool {v : Value} {t : ValueType} (h : v.Inhabits t)
    (ht : t.IsTruthOrNull) : v.Inhabits (.nullable .bool) := by
  obtain rfl | rfl := ht
  · exact h
  · rw [h.eq_null]
    rfl

/-! ## Expressions -/

namespace Expr

variable {e x : Expr} {t : ValueType} {env : List Value}

/-- A conversion to a type that the values have already changes nothing in a run. -/
theorem run_converted (h : ∀ v, e.value env = .ok v → v.Inhabits t) :
    (e.converted t).evaluate.run env = e.evaluate.run env := by
  unfold converted
  split
  · rfl
  split
  -- A null constant is typed anew and keeps its value.
  · rename_i hconstant
    have hnull := (Bool.and_eq_true_iff.1 hconstant).1
    unfold isNull at hnull
    split at hnull
    · rfl
    · cases hnull
  · rw [evaluate, Eval.run_bind]
    rcases hrun : e.evaluate.run env with ⟨error | v, after⟩
    · rfl
    · have hv : e.value env = .ok v := by rw [value, hrun]
      change (v.convert t, after) = _
      rw [Value.convert_eq_ok (h v hv) rfl id]

/-- The comparison of an expression with true, where both sides may be null. -/
def equalsTrue (e : Expr) : Expr :=
  .binary .equal (e.converted (.nullable .bool)) ((ofValue (.bool true)).converted (.nullable .bool)) .bool

theorem run_equalsTrue (htype : e.type.IsTruthOrNull) (h : ∀ v, e.value env = .ok v → v.Inhabits e.type) :
    e.equalsTrue.evaluate.run env =
      ((e.evaluate.run env).1.map fun v => .bool v.isTrue, (e.evaluate.run env).2) := by
  have hleft := run_converted fun v hv => (h v hv).nullable_bool htype
  rw [equalsTrue]
  rcases hrun : e.evaluate.run env with ⟨error | v, after⟩
  · rw [evaluate_binary rfl, Eval.run_bind, evaluatePair, Eval.run_bind, hleft, hrun]
    rfl
  · have hpair : (evaluatePair (e.converted (.nullable .bool))
        ((ofValue (.bool true)).converted (.nullable .bool))).run env = (.ok (v, .bool true), after) := by
      rw [evaluatePair, Eval.run_bind, hleft, hrun]
      rfl
    rw [run_binary rfl hpair, v.binary_equal_true]
    rfl

theorem toBoolean?_eq_some :
    e.toBoolean? = some x ↔
      e.type = .bool ∧ x = e ∨ e.type.IsTruthOrNull ∧ x = e.equalsTrue := by
  unfold toBoolean?
  by_cases hbool : e.type = .bool
  · simp [hbool, ValueType.IsTruthOrNull, eq_comm]
  rw [if_neg hbool]
  simp only [hbool, false_and, false_or]
  cases hcommon : e.type.common? .bool with
  | some t =>
    obtain ⟨hbool', -⟩ | ⟨htype, rfl⟩ := ValueType.common?_bool.1 hcommon
    · contradiction
    have hequal : binary? .equal (e.converted (.nullable .bool))
        ((ofValue (.bool true)).converted (.nullable .bool)) = .ok e.equalsTrue := by
      simp only [binary?, type_converted]
      rfl
    rw [Pairing.implicit_eq hcommon]
    dsimp only
    rw [hequal]
    simp [Except.toOption, htype, eq_comm]
  | none =>
    have hnot : ¬ e.type.IsTruthOrNull := by
      intro htype
      rw [ValueType.common?_bool.2 (.inr ⟨htype, rfl⟩)] at hcommon
      cases hcommon
    have hfails : Pairing.implicit e (ofValue (.bool true)) = ⟨false, e, ofValue (.bool true)⟩ := by
      obtain ⟨t, ht, -⟩ | hfails := Pairing.implicit_cases e (ofValue (.bool true))
      · cases hcommon.symm.trans ht
      · exact hfails
    rw [hfails]
    simp [hnot]

theorem exists_toBoolean? :
    (∃ x, e.toBoolean? = some x) ↔ e.type = .bool ∨ e.type = .nullable .bool ∨ e.type = .null := by
  constructor
  · rintro ⟨x, hx⟩
    exact (toBoolean?_eq_some.1 hx).imp And.left And.left
  · rintro (htype | htype)
    · exact ⟨e, toBoolean?_eq_some.2 (.inl ⟨htype, rfl⟩)⟩
    · exact ⟨e.equalsTrue, toBoolean?_eq_some.2 (.inr ⟨htype, rfl⟩)⟩

theorem type_toBoolean? (h : e.toBoolean? = some x) : x.type = .bool := by
  obtain ⟨htype, rfl⟩ | ⟨-, rfl⟩ := toBoolean?_eq_some.1 h
  · exact htype
  · rfl

/-- Made a truth value again, the expression stays as it is. -/
theorem toBoolean?_again (h : e.toBoolean? = some x) : x.toBoolean? = some x :=
  toBoolean?_eq_some.2 (.inl ⟨type_toBoolean? h, rfl⟩)

/-- The expression that replaces another one is true where that one is, false where that one is false or
null, and fails where that one fails. -/
theorem run_toBoolean? (h : e.toBoolean? = some x) (hvalues : ∀ v, e.value env = .ok v → v.Inhabits e.type) :
    x.evaluate.run env =
      ((e.evaluate.run env).1.map fun v => .bool v.isTrue, (e.evaluate.run env).2) := by
  obtain ⟨htype, rfl⟩ | ⟨htype, rfl⟩ := toBoolean?_eq_some.1 h
  · rcases hrun : x.evaluate.run env with ⟨error | v, after⟩
    · rfl
    · have hv : v.Inhabits .bool := htype ▸ hvalues v (by rw [value, hrun])
      obtain rfl | ⟨b, rfl⟩ := hv.bool rfl
      · cases hv
      · simp [Except.map]
  · exact run_equalsTrue htype hvalues

end Expr

/-- An expression is made a truth value exactly if its type is `bool`, with or without null, or that of null.
Then its type is `bool` and it stays as it is when that is done again. Where the values are of the type,
it is true, false or fails as the expression was: true, false or null, or failed. -/
theorem truth_values_read (e : Expr) :
    ((∃ x, e.toBoolean? = some x) ↔ e.type = .bool ∨ e.type = .nullable .bool ∨ e.type = .null) ∧
    (e.toBoolean? = none → InPlace.toBoolean.run e = (false, e)) ∧
    ∀ x, e.toBoolean? = some x →
      InPlace.toBoolean.run e = (true, x) ∧ x.type = .bool ∧ x.toBoolean? = some x ∧
      InPlace.toBoolean.run x = (true, x) ∧
      ∀ env, (∀ v, e.value env = .ok v → v.Inhabits e.type) →
        x.evaluate.run env =
          ((e.evaluate.run env).1.map fun v => .bool v.isTrue, (e.evaluate.run env).2) := by
  refine ⟨Expr.exists_toBoolean?, fun h => ?_, fun x h => ?_⟩
  · rw [InPlace.run_toBoolean, h]
  · have hagain := Expr.toBoolean?_again h
    refine ⟨?_, Expr.type_toBoolean? h, hagain, ?_, fun env => Expr.run_toBoolean? h⟩
    · rw [InPlace.run_toBoolean, h]
    · rw [InPlace.run_toBoolean, hagain]

/-- A parameter that is true, false or null. -/
def flag : Expr := .parameter 0 (some "flag") (.nullable .bool)

/-- Null is read as false. -/
theorem truth_values_read_flag :
    flag.toBoolean? = some flag.equalsTrue ∧
      flag.equalsTrue.evaluate.run [.null] = (.ok (.bool false), [.null]) := by
  have hflag : flag.toBoolean? = some flag.equalsTrue := Expr.toBoolean?_eq_some.2 (.inr ⟨.inl rfl, rfl⟩)
  have hread : flag.evaluate.run [.null] = (.ok .null, [.null]) := rfl
  have hvalues : ∀ v, flag.value [.null] = .ok v → v.Inhabits flag.type := by
    intro v hv
    rw [Expr.value, hread] at hv
    cases hv
    rfl
  have h := ((truth_values_read flag).2.2 _ hflag).2.2.2.2 [.null] hvalues
  rw [hread] at h
  exact ⟨hflag, h⟩

end Parlance
