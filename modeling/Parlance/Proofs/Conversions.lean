import Parlance.Proofs.Coercion
import Parlance.Proofs.Evaluation

/-!
# Conversions of operands and of values

The conversions of operands go by types alone: `Expr.convertTo` and the pairings say which there are, and
`Value.convert` makes them when values are there. `Value.Carried` is what may become of a value where its
expression has been replaced by one of another type, and `Expr.Replaces` are the replacements.
-/

namespace Parlance

/-! ## Values -/

namespace Value

/-- The value is a whole number beyond 64 bits with a sign, where the type wants an enum. -/
inductive Exceeds (v : Value) (t : ValueType) (d : EnumType) : Prop
  | ulong {n : Int} {hn : NumericKind.ulong.Holds n} (value : v = .number (.integral .ulong n hn))
      (large : 0x7fffffffffffffff < n) (type : t.underlying = .enum d)

/-- What becomes of a value that is taken to a type: a value of the type, or one of three failures. That
the value does not match the type is left for numbers beyond an enum, and for them alone. -/
inductive Carried (v : Value) (t : ValueType) : Except EvalError Value → Prop
  | value {w : Value} (inhabits : w.Inhabits t) (fits : ∀ d, ¬ v.Exceeds t d) : Carried v t (.ok w)
  | null (value : v = .null) (type : t.acceptsNull = false) :
      Carried v t (.error (.nullReference .convert))
  | outOfRange {n : Number} {k : NumericKind} (fits : ∀ d, ¬ v.Exceeds t d) :
      Carried v t (.error (.conversion (.outOfRange n k)))
  | exceeds {d : EnumType} (exceeds : v.Exceeds t d) :
      Carried v t (.error (.typeMismatch (.type (.enum d)) v))

variable {v w : Value} {t u : ValueType} {d : EnumType} {r : Except EvalError Value} {e : EvalError}

/-- A value that exceeds an enum belongs to a number type. -/
theorem Exceeds.underlying (h : v.Exceeds t d) (hu : v.Inhabits u) : u.underlying = .number .ulong := by
  obtain ⟨rfl, -, -⟩ := h
  exact (inhabits_iff_of_isScalar rfl).1 hu

theorem Exceeds.congr (h : v.Exceeds t d) (htu : t.underlying = u.underlying) : v.Exceeds u d := by
  obtain ⟨value, large, type⟩ := h
  exact ⟨value, large, htu ▸ type⟩

theorem Exceeds.convert (h : v.Exceeds t d) :
    v.convert t = .error (.typeMismatch (.type (.enum d)) v) := by
  obtain ⟨rfl, large, type⟩ := h
  have hlong : ¬ NumericKind.long.holds _ = true := fun hlong =>
    absurd (Number.holds_long.1 hlong).2 (Int.not_le.2 large)
  simp only [Value.convert, type, numberToEnum, Number.toInt?, if_neg hlong, mismatch]

/-- The ways in which a conversion of a value fails, whatever the type is. -/
theorem convert_eq_error (h : v.convert u = .error e) :
    (v = .null ∧ u.acceptsNull = false ∧ e = .nullReference .convert) ∨
    (∃ n k, e = .conversion (.outOfRange n k)) ∨
    e = .typeMismatch (.type u.underlying) v ∨ e = .typeMismatch .integralNumber .null := by
  have hrange {n : Number} {k : NumericKind}
      (h : EvalError.ofValue ((n.convert k).map number) = .error e) :
      ∃ n k, e = .conversion (.outOfRange n k) := by
    unfold Number.convert at h
    split at h
    · cases h
    · cases h
      exact ⟨n, k, rfl⟩
  unfold Value.convert at h
  split at h
  · split at h
    · cases h
    · rename_i hnull
      cases h
      exact .inl ⟨rfl, by simpa using hnull, rfl⟩
  · exact .inr (.inl (hrange h))
  · rename_i n d hd
    rw [hd]
    unfold numberToEnum at h
    split at h
    · split at h
      · cases h
      · cases h
        exact .inr (.inr (.inl rfl))
    · cases h
      exact .inr (.inr (.inl rfl))
  · unfold enumToNumber at h
    split at h
    · exact .inr (.inl (hrange h))
    · cases h
      exact .inr (.inr (.inr rfl))
  · cases h
  · cases h
  · unfold retype at h
    split at h
    · cases h
    · split at h
      · cases h
      · cases h
        exact .inr (.inr (.inl rfl))

/-- A mismatch that typing does not rule out is that of a number beyond an enum. -/
theorem exceeds_of_admissible (h : (EvalError.typeMismatch (.type u.underlying) v).Admissible) :
    ∃ d, v.Exceeds u d := by
  generalize ht : u.underlying = t at h
  unfold EvalError.Admissible EvalError.isAdmissible at h
  split at h
  case h_7 heq =>
    cases heq
    exact ⟨_, .ulong rfl (of_decide_eq_true h) ht⟩
  case h_8 => cases h
  all_goals contradiction

namespace Carried

/-- A conversion between types that allow it. -/
theorem convert (h : v.Inhabits t) (hc : t.Converts u) : v.Carried u (v.convert u) := by
  have hout := outcome_convert h hc
  by_cases hx : ∃ d, v.Exceeds u d
  · obtain ⟨d, hx⟩ := hx
    rw [hx.convert]
    exact .exceeds hx
  have hfits := not_exists.1 hx
  cases hr : v.convert u with
  | ok w =>
    rw [hr] at hout
    exact .value hout hfits
  | error e =>
    rw [hr] at hout
    obtain ⟨hv, hu, rfl⟩ | ⟨n, k, rfl⟩ | rfl | rfl := convert_eq_error hr
    · exact .null hv hu
    · exact .outOfRange hfits
    · exact absurd (exceeds_of_admissible hout) hx
    · cases hout

/-- A value that stays as it is. -/
theorem refl (h : v.Inhabits t) : v.Carried t (.ok v) := by
  refine .value h fun d hd => ?_
  have hnumber := hd.underlying h
  obtain ⟨-, -, henum⟩ := hd
  rw [henum] at hnumber
  cases hnumber

/-- From a type to one that differs by a nullable wrapper. -/
theorem congr (h : v.Carried t r) (htu : t.underlying = u.underlying)
    (hnull : t.acceptsNull = true → u.acceptsNull = true)
    (hr : r ≠ .error (.nullReference .convert)) : v.Carried u r := by
  cases h with
  | @value w hw hfits =>
    refine .value ?_ fun d hd => hfits d (hd.congr htu.symm)
    by_cases hw0 : w = .null
    · subst hw0
      exact hnull hw.acceptsNull
    · rwa [Inhabits, ← inhabits_congr hw0 htu]
  | null => exact absurd rfl hr
  | outOfRange hfits => exact .outOfRange fun d hd => hfits d (hd.congr htu.symm)
  | exceeds hd => exact .exceeds (hd.congr htu)

end Carried

/-- A value that belongs to a type stays as it is on the way to a type that differs by a nullable
wrapper. -/
theorem convert_eq_ok (h : v.Inhabits t) (htu : t.underlying = u.underlying)
    (hnull : t.acceptsNull = true → u.acceptsNull = true) : v.convert u = .ok v := by
  by_cases hv : v = .null
  · subst hv
    rw [convert, if_pos (hnull h.acceptsNull)]
  have hu : v.Inhabits u := by rwa [Inhabits, ← inhabits_congr hv htu]
  have hretype := retype_eq_ok hu hv
  cases v with
  | number n =>
    have hk : u.underlying = .number n.kind := hu.underlying_eq hv (by simp)
    simp [convert, hk, Number.convert, Number.convert?, EvalError.ofValue, Except.map]
  | enum d i =>
    have hk : u.underlying = .enum d := hu.underlying_eq hv (by simp)
    simp only [convert, hk]
  | dateTime m =>
    have hk : u.underlying = .dateTime := hu.underlying_eq hv (by simp)
    simpa only [convert, hk] using hretype
  | null => exact absurd rfl hv
  | _ => simpa only [convert] using hretype

end Value

/-! ## Operands -/

namespace Expr

variable {e : Expr} {t u : ValueType} {v : Value} {env : List Value} {d : EnumType}

theorem value_convert (e : Expr) (t : ValueType) (env : List Value) :
    (Expr.convert e t).value env = (e.value env).bind fun v => v.convert t := by
  unfold value
  rw [evaluate, Eval.run_bind]
  rcases e.evaluate.run env with ⟨_ | v, after⟩ <;> rfl

/-- The value of an operand is carried to the type that the operand is converted to. -/
theorem carried_converted (hv : e.value env = .ok v) (h : v.Inhabits e.type)
    (hc : e.type.Converts t) : v.Carried t ((e.converted t).value env) := by
  unfold converted
  split
  · rename_i ht
    rw [hv]
    exact .refl (ht ▸ h)
  split
  · rename_i hnull
    obtain ⟨hnull, ht⟩ := Bool.and_eq_true_iff.1 hnull
    unfold isNull at hnull
    split at hnull
    · rename_i s
      obtain rfl : v = .null := (Except.ok.inj hv).symm
      exact .refl ht
    · cases hnull
  · rw [value_convert, hv]
    exact .convert h hc

/-- An operand whose values belong to its type has the same values after a conversion that adds no more
than a nullable wrapper. -/
theorem value_converted (h : ∀ v, e.value env = .ok v → v.Inhabits e.type)
    (ht : e.type.underlying = t.underlying) (hnull : e.type.acceptsNull = true → t.acceptsNull = true) :
    (e.converted t).value env = e.value env := by
  unfold converted
  split
  · rfl
  split
  · rename_i hconstant
    have hconstant := (Bool.and_eq_true_iff.1 hconstant).1
    unfold isNull at hconstant
    split at hconstant
    · rfl
    · cases hconstant
  · rw [value_convert]
    cases hv : e.value env with
    | error e => rfl
    | ok v => exact Value.convert_eq_ok (h v hv) ht hnull

/-- A conversion that adds no more than a nullable wrapper changes nothing in what became of a value. -/
theorem carried_again (h : v.Carried e.type (e.value env))
    (ht : e.type.underlying = t.underlying) (hnull : e.type.acceptsNull = true → t.acceptsNull = true)
    (hr : e.value env ≠ .error (.nullReference .convert)) : v.Carried t ((e.converted t).value env) := by
  have hvalues : ∀ w, e.value env = .ok w → w.Inhabits e.type := by
    intro w hw
    rw [hw] at h
    cases h with
    | value hw _ => exact hw
  rw [value_converted hvalues ht hnull]
  exact h.congr ht hnull hr

end Expr

/-! ## Pairs -/

/-- The common type admits null where a type does. -/
theorem ValueType.acceptsNull_common? {a b t : ValueType} (h : a.common? b = some t)
    (hnull : a.acceptsNull = true ∨ b.acceptsNull = true) : t.acceptsNull = true := by
  unfold common? at h
  split at h
  · rename_i hab
    cases h
    exact hnull.elim id fun hb => hab ▸ hb
  split at h
  · cases h
    exact acceptsNull_orNull b
  split at h
  · cases h
    exact acceptsNull_orNull a
  split at h
  · cases h
    exact acceptsNull_orNull a.underlying
  obtain ⟨j, hj, rfl⟩ := Option.map_eq_some_iff.1 h
  have hwrapper {c : ValueType} (hc : c.acceptsNull = true)
      (hu : c.underlying = .dateTime ∨ c.underlying = .dateTimeOffset ∨ ∃ k, c.underlying = .number k) :
      c.isNullable = true := by
    cases c <;> simp_all [acceptsNull, isNullable, isReferenceLike, underlying]
  have hnullable : (a.isNullable || b.isNullable) = true := by
    rw [Bool.or_eq_true]
    split at hj
    · exact hnull.imp (hwrapper · (by simp [*])) (hwrapper · (by simp [*]))
    · exact hnull.imp (hwrapper · (by simp [*])) (hwrapper · (by simp [*]))
    · exact hnull.imp (hwrapper · (by simp [*])) (hwrapper · (by simp [*]))
    · cases hj
  rw [if_pos hnullable]
  exact acceptsNull_orNull j

/-- Types with the same enum behind them have a common type with that enum behind it. -/
theorem ValueType.underlying_common? {a b t : ValueType} {d : EnumType} (h : a.common? b = some t)
    (ha : a.underlying = .enum d) (hb : b.underlying = .enum d) : t.underlying = .enum d := by
  unfold common? at h
  split at h
  · cases h
    exact ha
  split at h
  · rename_i hnull
    rw [hnull] at ha
    cases ha
  split at h
  · rename_i hnull
    rw [hnull] at hb
    cases hb
  rw [if_pos (ha.trans hb.symm)] at h
  cases h
  rw [underlying_orNull, ha]
  rfl

/-- Where an operand has a value of its type, that value is carried to the type of the expression that
replaces the operand. -/
def Expr.Carries (e c : Expr) : Prop :=
  ∀ {env : List Value} {v : Value}, e.value env = .ok v → v.Inhabits e.type →
    v.Carried c.type (c.value env)

theorem Expr.Carries.refl (e : Expr) : e.Carries e := by
  intro env v hv h
  rw [hv]
  exact .refl h

theorem Expr.Carries.converted {e : Expr} {t : ValueType} (hc : e.type.Converts t) :
    e.Carries (e.converted t) := by
  intro env v hv h
  rw [type_converted]
  exact carried_converted hv h hc

namespace Pairing

variable {left right x other : Expr} {env : List Value} {v : Value} {t : ValueType} {d : EnumType}

theorem implicit_eq (h : left.type.common? right.type = some t) :
    implicit left right = ⟨true, left.converted t, right.converted t⟩ := by
  unfold implicit
  split
  · rename_i htype
    rw [ValueType.common?, if_pos htype] at h
    cases h
    rw [Expr.converted, if_pos rfl, Expr.converted, if_pos htype.symm]
  · rw [h]

theorem implicit_cases (left right : Expr) :
    (∃ t, left.type.common? right.type = some t ∧
      implicit left right = ⟨true, left.converted t, right.converted t⟩) ∨
    implicit left right = ⟨false, left, right⟩ := by
  cases h : left.type.common? right.type with
  | some t => exact .inl ⟨t, rfl, implicit_eq h⟩
  | none =>
    have htype : left.type ≠ right.type := by
      intro htype
      rw [ValueType.common?, if_pos htype] at h
      cases h
    rw [implicit, if_neg htype, h]
    exact .inr rfl

theorem carries_implicit (hl : left.type.WellFormed) (hr : right.type.WellFormed) :
    left.Carries (implicit left right).left ∧ right.Carries (implicit left right).right := by
  obtain ⟨t, ht, heq⟩ | heq := implicit_cases left right
  · obtain ⟨-, hleft, hright⟩ := ValueType.converts_common? hl hr ht
    rw [heq]
    exact ⟨Expr.Carries.converted hleft, Expr.Carries.converted hright⟩
  · rw [heq]
    exact ⟨Expr.Carries.refl left, Expr.Carries.refl right⟩

/-- An expression of an enum that stands for an operand, brought together with the other operand, whose
type is that enum. -/
theorem carries_beside {e : Expr} (hx : e.Carries x)
    (hnull : ∀ {env v}, e.value env = .ok v → v.Inhabits e.type →
      x.value env ≠ .error (.nullReference .convert))
    (htype : x.type = other.type ∨ x.type = other.type.orNull) (hd : other.type.underlying = .enum d)
    (ho : other.type.WellFormed) :
    (other.Carries (implicit other x).left ∧ e.Carries (implicit other x).right) ∧
      e.Carries (implicit x other).left ∧ other.Carries (implicit x other).right := by
  have hxd : x.type.underlying = .enum d := by rcases htype with h | h <;> rw [h] <;> simp [hd]
  have hxo : x.type.WellFormed := by rcases htype with h | h <;> rw [h]; exacts [ho, ho.orNull]
  refine ⟨⟨(carries_implicit ho hxo).1, fun {env v} hv h => ?_⟩, fun {env v} hv h => ?_,
    (carries_implicit hxo ho).2⟩
  · obtain ⟨t, ht, heq⟩ | heq := implicit_cases other x
    · rw [heq, Expr.type_converted]
      have hu := ValueType.underlying_common? ht hd hxd
      exact Expr.carried_again (hx hv h) (hxd.trans hu.symm)
        (fun hnull => ValueType.acceptsNull_common? ht (.inr hnull)) (hnull hv h)
    · rw [heq]
      exact hx hv h
  · obtain ⟨t, ht, heq⟩ | heq := implicit_cases x other
    · rw [heq, Expr.type_converted]
      have hu := ValueType.underlying_common? ht hxd hd
      exact Expr.carried_again (hx hv h) (hxd.trans hu.symm)
        (fun hnull => ValueType.acceptsNull_common? ht (.inl hnull)) (hnull hv h)
    · rw [heq]
      exact hx hv h

/-! ## Numbers and enums -/

/-- A number operand taken as an enum. It is a null of the enum if it is null, so that is no error. -/
theorem carries_numberAsEnum? {number : Expr} (hd : t.underlying = .enum d)
    (hx : numberAsEnum? number t = some x) :
    number.Carries x ∧ (x.type = t ∨ x.type = t.orNull) ∧ ∀ {env v}, number.value env = .ok v →
      v.Inhabits number.type → x.value env ≠ .error (.nullReference .convert) := by
  unfold numberAsEnum? at hx
  split at hx
  swap
  · cases hx
  rename_i k hk
  have hk := ValueType.numericKind?_eq_some.1 hk
  split at hx
  swap
  · cases hx
  rename_i hcompatible
  cases hx
  have hc : number.type.Converts t := by
    right
    rw [ValueType.casts, hk, hd]
    exact hcompatible
  have hcarries : number.Carries
      (number.converted (if number.type.isNullable then t.orNull else t)) := by
    split
    · exact Expr.Carries.converted hc.orNull
    · exact Expr.Carries.converted hc
  refine ⟨hcarries, by rw [Expr.type_converted]; split <;> simp, fun {env v} hv h herror => ?_⟩
  have hv := hcarries hv h
  rw [herror, Expr.type_converted] at hv
  cases hv with
  | null hv ht =>
    subst hv
    have hnullable : number.type.isNullable = true := by
      have := h.acceptsNull
      cases hn : number.type <;>
        simp_all [ValueType.acceptsNull, ValueType.isNullable, ValueType.isReferenceLike, ValueType.underlying]
    rw [if_pos hnullable, ValueType.acceptsNull_orNull] at ht
    cases ht

theorem carries_enumNumber (hl : left.type.WellFormed) (hr : right.type.WellFormed) :
    left.Carries (enumNumber left right).left ∧ right.Carries (enumNumber left right).right := by
  unfold enumNumber
  split
  · exact ⟨Expr.Carries.refl left, Expr.Carries.refl right⟩
  split
  · rename_i d hd
    have hd := ValueType.enumType?_eq_some.1 (enumSide?_eq_left hd)
    split
    · rename_i x hx
      obtain ⟨hcarries, htype, hnull⟩ := carries_numberAsEnum? hd hx
      exact (carries_beside hcarries hnull htype hd hl).1
    · exact ⟨Expr.Carries.refl left, Expr.Carries.refl right⟩
  · rename_i d hd
    have hd := ValueType.enumType?_eq_some.1 (enumSide?_eq_right hd)
    split
    · rename_i x hx
      obtain ⟨hcarries, htype, hnull⟩ := carries_numberAsEnum? hd hx
      exact (carries_beside hcarries hnull htype hd hr).2
    · exact ⟨Expr.Carries.refl left, Expr.Carries.refl right⟩
  · exact ⟨Expr.Carries.refl left, Expr.Carries.refl right⟩

end Pairing

/-! ## Constant texts and enums -/

theorem Expr.value_converted_enum {d : EnumType} {t : ValueType} (hd : t.underlying = .enum d)
    (value : Int64) (env : List Value) :
    ((ofValue (.enum d value)).converted t).value env = .ok (.enum d value) := by
  have hvalues (v : Value) (hv : (ofValue (.enum d value)).value env = .ok v) :
      v.Inhabits (ofValue (.enum d value)).type := by
    obtain rfl : v = .enum d value := (Except.ok.inj hv).symm
    exact (Value.inhabits_iff_of_isScalar rfl).2 rfl
  exact value_converted hvalues hd.symm nofun

/-- The constant that a text is replaced by has one value, which belongs to its type. -/
theorem Expr.value_enumConstant {string x : Expr} {d : EnumType} {t : ValueType} {ignoreCase : Bool}
    (hd : t.underlying = .enum d) (hx : string.enumConstant d t ignoreCase = .ok x) :
    (x.type = t ∨ x.type = t.orNull) ∧ ∃ w, w.Inhabits x.type ∧ ∀ env, x.value env = .ok w := by
  unfold enumConstant at hx
  split at hx
  · cases hx
  split at hx
  · cases hx
  · split at hx
    · rename_i value _
      cases hx
      rw [type_converted]
      have hinhabits : (Value.enum d value).Inhabits t := (Value.inhabits_iff_of_isScalar rfl).2 hd
      exact ⟨.inl rfl, _, hinhabits, value_converted_enum hd value⟩
    · cases hx
  · cases hx
    rw [null_converted_orNull hd]
    exact ⟨.inr rfl, .null, ValueType.acceptsNull_orNull t, fun _ => rfl⟩
  · cases hx

/-- A text operand taken as a constant of an enum. -/
theorem Expr.carries_enumConstant {string x : Expr} {d : EnumType} {t : ValueType} {ignoreCase : Bool}
    (hstring : string.type.underlying = .string) (hd : t.underlying = .enum d)
    (hx : string.enumConstant d t ignoreCase = .ok x) : string.Carries x := by
  obtain ⟨-, w, hw, hvalue⟩ := value_enumConstant hd hx
  intro env v hv h
  rw [hvalue]
  refine .value hw fun d hexceeds => ?_
  have hnumber := hexceeds.underlying h
  rw [hstring] at hnumber
  cases hnumber

theorem Pairing.carries_enumString {left right : Expr} {ignoreCase : Bool} {p : Pairing}
    (hl : left.type.WellFormed) (hr : right.type.WellFormed)
    (hp : enumString ignoreCase left right = .ok p) : left.Carries p.left ∧ right.Carries p.right := by
  unfold enumString at hp
  split at hp
  · cases hp
    exact ⟨Expr.Carries.refl left, Expr.Carries.refl right⟩
  split at hp
  · rename_i d hd
    have hd := ValueType.enumType?_eq_some.1 (enumSide?_eq_left hd)
    split at hp
    · rename_i hstring
      obtain ⟨x, hx, rfl⟩ := map_eq_ok.1 hp
      obtain ⟨htype, w, -, hvalue⟩ := Expr.value_enumConstant hd hx
      exact (carries_beside (Expr.carries_enumConstant hstring hd hx)
        (fun _ _ => by rw [hvalue]; nofun) htype hd hl).1
    · cases hp
      exact ⟨Expr.Carries.refl left, Expr.Carries.refl right⟩
  · rename_i d hd
    have hd := ValueType.enumType?_eq_some.1 (enumSide?_eq_right hd)
    split at hp
    · rename_i hstring
      obtain ⟨x, hx, rfl⟩ := map_eq_ok.1 hp
      obtain ⟨htype, w, -, hvalue⟩ := Expr.value_enumConstant hd hx
      exact (carries_beside (Expr.carries_enumConstant hstring hd hx)
        (fun _ _ => by rw [hvalue]; nofun) htype hd hr).2
    · cases hp
      exact ⟨Expr.Carries.refl left, Expr.Carries.refl right⟩
  · cases hp
    exact ⟨Expr.Carries.refl left, Expr.Carries.refl right⟩

/-! ## Single operands -/

/-- An argument converted to a declared type. -/
theorem Expr.carries_convertTo {e c : Expr} {t : ValueType} (h : e.convertTo t = .ok (some c)) :
    e.Carries c := by
  unfold convertTo at h
  split at h
  · cases h
    exact Carries.refl e
  rename_i hne
  split at h
  · rename_i hnull
    split at h
    · rename_i ht
      cases h
      intro env v hv _
      rw [converted, if_neg hne, hnull, ht]
      unfold isNull at hnull
      split at hnull
      · obtain rfl : v = .null := (Except.ok.inj hv).symm
        exact .refl ht
      · cases hnull
    · cases h
  split at h
  · rename_i horNull
    cases h
    exact Expr.Carries.converted (ValueType.converts_of_underlying_eq (by rw [← horNull]; simp))
  split at h
  · rename_i d hstring hd
    obtain ⟨y, hy, hyc⟩ := map_eq_ok.1 h
    cases hyc
    exact carries_enumConstant hstring hd hy
  · split at h
    · rename_i hcasts
      cases h
      exact Expr.Carries.converted (.inr hcasts)
    · cases h

/-! ## Replacements -/

/-- The attempts to give two operands one type that come to a result. -/
inductive Pairing.Attempt (left right : Expr) : Pairing → Prop
  | implicit : Attempt left right (implicit left right)
  | enumNumber : Attempt left right (enumNumber left right)
  | enumString {ignoreCase : Bool} {p : Pairing} (pair : enumString ignoreCase left right = .ok p) :
      Attempt left right p

/-- A conversion puts an expression in the place of an operand: an argument is converted to a type, or
an operand is brought to one type with its neighbour. -/
inductive Expr.Replaces : Expr → Expr → Prop
  | argument {e c : Expr} {t : ValueType} (argument : e.type.WellFormed) (target : t.WellFormed)
      (convert : e.convertTo t = .ok (some c)) : Replaces e c
  | left {left right : Expr} {p : Pairing} (left_type : left.type.WellFormed)
      (right_type : right.type.WellFormed) (attempt : p.Attempt left right) (done : p.done = true) :
      Replaces left p.left
  | right {left right : Expr} {p : Pairing} (left_type : left.type.WellFormed)
      (right_type : right.type.WellFormed) (attempt : p.Attempt left right) (done : p.done = true) :
      Replaces right p.right

theorem Pairing.Attempt.carries {left right : Expr} {p : Pairing} (hl : left.type.WellFormed)
    (hr : right.type.WellFormed) (h : p.Attempt left right) :
    left.Carries p.left ∧ right.Carries p.right := by
  cases h with
  | implicit => exact carries_implicit hl hr
  | enumNumber => exact carries_enumNumber hl hr
  | enumString pair => exact carries_enumString hl hr pair

/-- Where a conversion has replaced an operand, and the operand has a value of its type, its replacement
has a value of its own type, or it fails: at a null that the type does not admit, out of range, or at a
number beyond 64 bits with a sign where the type is that of an enum. -/
theorem values_carried {e c : Expr} (h : e.Replaces c) {env : List Value} {v : Value}
    (hv : e.value env = .ok v) (inhabits : v.Inhabits e.type) : v.Carried c.type (c.value env) := by
  cases h with
  | argument _ _ convert => exact Expr.carries_convertTo convert hv inhabits
  | left hl hr attempt _ => exact (attempt.carries hl hr).1 hv inhabits
  | right hl hr attempt _ => exact (attempt.carries hl hr).2 hv inhabits

/-- A type of flags with unsigned numbers of 64 bits behind them. -/
def flagsType : ValueType := .enum ⟨"Flags", .ulong, [("All", -1)]⟩

/-- A parameter that holds such a number or null. -/
def flagsParameter : Expr := .parameter 0 (some "flags") (.nullable (.number .ulong))

/-- The number with all 64 bits set. -/
def allBits : Value := .number (.integral .ulong 0xffffffffffffffff (by decide))

theorem replaces_flagsParameter : flagsParameter.Replaces (.convert flagsParameter flagsType) := by
  have hconvert : flagsParameter.convertTo flagsType = .ok (some (.convert flagsParameter flagsType)) := rfl
  exact .argument rfl rfl hconvert

/-- A null is no flags, which is an error of the conversion. -/
theorem values_carried_flags :
    flagsParameter.Replaces (.convert flagsParameter flagsType) ∧
      flagsParameter.value [.null] = .ok .null ∧ Value.Inhabits .null flagsParameter.type ∧
      Value.Carried .null flagsType ((Expr.convert flagsParameter flagsType).value [.null]) :=
  ⟨replaces_flagsParameter, rfl, rfl, values_carried replaces_flagsParameter rfl rfl⟩

/-- The number with all bits set is of the type of the parameter, whose conversion to flags typing
allows, and yet it is a mismatch. -/
theorem mismatch_allBits :
    flagsParameter.Replaces (.convert flagsParameter flagsType) ∧
      flagsParameter.value [allBits] = .ok allBits ∧ allBits.Inhabits flagsParameter.type ∧
      (Expr.convert flagsParameter flagsType).value [allBits] =
        .error (.typeMismatch (.type flagsType) allBits) := by
  have hexceeds : allBits.Exceeds flagsType ⟨"Flags", .ulong, [("All", -1)]⟩ :=
    .ulong rfl (by decide) rfl
  refine ⟨replaces_flagsParameter, rfl, rfl, ?_⟩
  rw [Expr.value_convert]
  exact hexceeds.convert

end Parlance
