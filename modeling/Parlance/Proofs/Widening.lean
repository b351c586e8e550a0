import Parlance.Proofs.CommonType
import Parlance.Proofs.Conversions
import Parlance.Proofs.Decimals

/-!
# Exact widenings

Between kinds that are not floating a number that is widened stays equal to itself, because the bounds of a
kind lie within those of its widenings (`NumericKind.within_of_canWidenTo`). There is one exception: the
kind of characters widens to the unsigned kind of 16 bits, but there are characters beyond 16 bits. These
are out of range there (`Number.Overruns`, `Number.Widened`). Operands that are brought to a common type
keep their numbers in the same way (`widenings_exact`).
-/

namespace Parlance

/-! ## Bounds of kinds -/

namespace NumericKind

variable {k l : NumericKind} {i : Int}

/-- Kinds whose numbers are exact: those that are not floating. -/
def isExact (k : NumericKind) : Bool := !k matches float | double

theorem isExact_iff : k.isExact = true ↔ k.isIntegral = true ∨ k = .decimal := by
  cases k <;> decide

/-- Whether the numbers of an integral kind lie between the bounds of another one. -/
def within (k l : NumericKind) : Bool :=
  match k.bounds?, l.bounds? with
  | some (lo, hi), some (lo', hi') => lo' ≤ lo && hi ≤ hi'
  | _, _ => false

/-- A kind lies within all of its integral widenings, apart from one. -/
theorem within_of_canWidenTo (h : k.canWidenTo l = true) (hl : l.isIntegral = true) :
    k.within l = true ∨ k = .char ∧ l = .ushort := by
  have hall : ∀ k ∈ all, ∀ l ∈ all, k.canWidenTo l = true → l.isIntegral = true →
      k.within l = true ∨ k = .char ∧ l = .ushort := by
    decide
  exact hall k (mem_all k) l (mem_all l) h hl

theorem eq_of_canWidenTo_char (h : k.canWidenTo .char = true) : k = .char := by
  cases k <;> first | rfl | cases h

theorem eq_of_decimal_canWidenTo (h : decimal.canWidenTo l = true) : l = .decimal := by
  cases l <;> first | rfl | cases h

theorem holds_ushort : ushort.Holds i ↔ 0 ≤ i ∧ i ≤ 0xffff := by
  simp [Holds, holds, bounds?]

theorem holds_of_within (h : k.canWidenTo l = true) (hwithin : k.within l = true) (hi : k.Holds i) :
    l.Holds i := by
  -- Characters alone leave out numbers between their bounds, and no other kind widens to them.
  by_cases hchar : l = .char
  · subst hchar
    rwa [← eq_of_canWidenTo_char h]
  unfold within at hwithin
  split at hwithin
  · rename_i hk hl
    obtain ⟨lo, hi, hbounds, hlo, hhi⟩ := Number.bounds_of_holds hi
    rw [hk] at hbounds
    cases hbounds
    simp only [Bool.and_eq_true, decide_eq_true_eq] at hwithin
    rw [Holds, holds, hl]
    simp only [hchar, decide_false, Bool.false_and, Bool.not_false, Bool.and_true, Bool.and_eq_true,
      decide_eq_true_eq]
    exact ⟨Int.le_trans hwithin.1 hlo, Int.le_trans hhi hwithin.2⟩
  · cases hwithin

theorem natAbs_lt_of_holds (h : k.Holds i) : i.natAbs < Decimal.limit := by
  have hlimit : Decimal.limit = 0x1000000000000000000000000 := rfl
  cases k <;> simp [Holds, holds, bounds?] at h <;> omega

end NumericKind

@[simp] theorem Decimal.compare_self (d : Decimal) : d.compare d = .eq := by
  rw [Decimal.compare]
  exact Std.ReflCmp.compare_self

/-! ## Numbers -/

namespace Number

variable {n : Number} {k l : NumericKind} {i : Int}

/-- The number is a character beyond 16 bits, where an unsigned number of 16 bits is wanted. -/
inductive Overruns : Number → NumericKind → Prop
  | char {i : Int} {holds : NumericKind.char.Holds i} (beyond : 0xffff < i) :
      Overruns (.integral .char i holds) .ushort

/-- What becomes of a number that is widened: an equal number of the kind, unless it overruns the kind. -/
inductive Widened (n : Number) (l : NumericKind) : Except ValueError Number → Prop
  | equal {m : Number} (kind : m.kind = l) (equal : m.compare? n = some .eq) (fits : ¬ n.Overruns l) :
      Widened n l (.ok m)
  | overrun (overruns : n.Overruns l) : Widened n l (.error (.outOfRange n l))

theorem convert?_integral {hk : k.Holds i} (hint : l.isIntegral = true) :
    (integral k i hk).convert? l = ofInt? l i := by
  unfold convert?
  by_cases hkl : (integral k i hk).kind = l
  · obtain rfl := hkl
    rw [if_pos rfl, kind, ofInt?, dif_pos hk]
  · rw [if_neg hkl]
    cases l <;> first | rfl | cases hint

theorem exists_convert?_decimal (hk : k.Holds i) :
    ∃ d, (integral k i hk).convert? .decimal = some (.decimal d) ∧
      (decimal d).compare? (.integral k i hk) = some .eq := by
  have hne : k ≠ .decimal := by
    rintro rfl
    cases hk
  obtain ⟨d, hd⟩ : ∃ d, Decimal.ofInt? i = some d :=
    Option.isSome_iff_exists.1
      (Decimal.make?_isSome (NumericKind.natAbs_lt_of_holds hk) (Nat.zero_le 28))
  refine ⟨d, ?_, ?_⟩
  · unfold convert?
    rw [kind, if_neg hne, toDecimal?, hd]
    rfl
  · rw [compare?, hd, Option.map_some, Decimal.compare_self]

theorem Overruns.convert (h : n.Overruns l) : n.convert l = .error (.outOfRange n l) := by
  cases h with
  | char beyond =>
    have hushort : ¬ NumericKind.ushort.Holds _ := fun h =>
      absurd (NumericKind.holds_ushort.1 h).2 (Int.not_le.2 beyond)
    rw [Number.convert, convert?_integral rfl, ofInt?, dif_neg hushort]

/-- A kind holds what is widened to it and does not overrun it. -/
theorem holds_of_canWidenTo {hk : k.Holds i} (h : k.canWidenTo l = true) (hl : l.isIntegral = true)
    (hfits : ¬ (integral k i hk).Overruns l) : l.Holds i := by
  rcases NumericKind.within_of_canWidenTo h hl with hwithin | ⟨rfl, rfl⟩
  · exact NumericKind.holds_of_within h hwithin hk
  · have hle : i ≤ 0xffff := Int.not_lt.1 fun hlt => hfits (.char hlt)
    obtain ⟨lo, hi, hbounds, hlo, -⟩ := bounds_of_holds hk
    cases hbounds
    exact NumericKind.holds_ushort.2 ⟨hlo, hle⟩

theorem widened_convert (hn : n.kind.isExact = true) (hl : l.isExact = true)
    (h : n.kind.canWidenTo l = true) : n.Widened l (n.convert l) := by
  by_cases hover : n.Overruns l
  · rw [hover.convert]
    exact .overrun hover
  cases n with
  | integral k i hk =>
    rw [convert]
    rcases NumericKind.isExact_iff.1 hl with hint | rfl
    · have hholds := holds_of_canWidenTo h hint hover
      rw [convert?_integral hint, ofInt?, dif_pos hholds]
      exact .equal rfl (congrArg some Std.ReflCmp.compare_self) hover
    · obtain ⟨d, hd, heq⟩ := exists_convert?_decimal hk
      rw [hd]
      exact .equal rfl heq hover
  | decimal d =>
    obtain rfl := NumericKind.eq_of_decimal_canWidenTo h
    refine .equal rfl ?_ hover
    rw [compare?, Decimal.compare_self]
  | float => cases hn
  | double => cases hn

end Number

/-! ## Operands -/

namespace Value

variable {v : Value} {t u : ValueType} {k l : NumericKind}

/-- What becomes of a value whose number is widened. Null stays null. -/
inductive Widened (v : Value) (l : NumericKind) : Except EvalError Value → Prop
  | null (value : v = .null) : Widened v l (.ok .null)
  | number {n : Number} {r : Except ValueError Number} (value : v = .number n) (widened : n.Widened l r) :
      Widened v l (EvalError.ofValue (r.map .number))

theorem widened_convert (h : v.Inhabits t) (ht : t.underlying = .number k) (hu : u.underlying = .number l)
    (hk : k.isExact = true) (hl : l.isExact = true) (hkl : k.canWidenTo l = true)
    (hnull : t.acceptsNull = true → u.acceptsNull = true) : v.Widened l (v.convert u) := by
  obtain rfl | ⟨n, rfl, rfl⟩ := h.number ht
  · rw [convert, if_pos (hnull h.acceptsNull)]
    exact .null rfl
  · simp only [convert, hu]
    exact .number rfl (Number.widened_convert hk hl hkl)

end Value

namespace Expr

variable {e : Expr} {t : ValueType} {v : Value} {env : List Value} {k l : NumericKind}

/-- The value of a converted operand is the converted value, also where there is nothing to convert. -/
theorem value_converted_of_ok (hv : e.value env = .ok v) (h : v.Inhabits e.type)
    (hnull : e.type.acceptsNull = true → t.acceptsNull = true) :
    (e.converted t).value env = v.convert t := by
  unfold converted
  split
  · rename_i ht
    rw [hv, Value.convert_eq_ok h (congrArg _ ht) hnull]
  split
  · rename_i hconstant
    obtain ⟨hconstant, ht⟩ := Bool.and_eq_true_iff.1 hconstant
    unfold isNull at hconstant
    split at hconstant
    · obtain rfl : v = .null := (Except.ok.inj hv).symm
      rw [Value.convert, if_pos ht]
      rfl
    · cases hconstant
  · rw [value_convert, hv]
    rfl

/-- What becomes of the value of an operand that is a number and is brought to a wider kind. -/
theorem widened_converted (hk : e.type.numericKind? = some k) (ht : t.underlying = .number l)
    (hke : k.isExact = true) (hle : l.isExact = true) (hkl : k.canWidenTo l = true)
    (hnull : e.type.acceptsNull = true → t.acceptsNull = true) (hv : e.value env = .ok v)
    (h : v.Inhabits e.type) : v.Widened l ((e.converted t).value env) := by
  rw [value_converted_of_ok hv h hnull]
  exact Value.widened_convert h (ValueType.numericKind?_eq_some.1 hk) ht hke hle hkl hnull

end Expr

theorem ValueType.wellFormed_of_numericKind? {t : ValueType} {k : NumericKind}
    (h : t.numericKind? = some k) : t.WellFormed := by
  have hu := numericKind?_eq_some.1 h
  cases t with
  | nullable inner =>
    obtain rfl : inner = .number k := hu
    rfl
  | _ => cases hu <;> rfl

namespace Pairing

variable {left right : Expr} {k l m : NumericKind}

/-- Operands that are numbers are brought to a type of their common kind, which admits null if one of
theirs does. -/
theorem implicit_numbers (hk : left.type.numericKind? = some k) (hl : right.type.numericKind? = some l)
    (h : k.common? l = some m) : ∃ t, implicit left right = ⟨true, left.converted t, right.converted t⟩ ∧
      t.underlying = .number m ∧ t.acceptsNull = (left.type.acceptsNull || right.type.acceptsNull) := by
  have hkw := ValueType.wellFormed_of_numericKind? hk
  have hlw := ValueType.wellFormed_of_numericKind? hl
  have hjoins : ValueType.Joins left.type.underlying right.type.underlying (.number m) := by
    rw [ValueType.numericKind?_eq_some.1 hk, ValueType.numericKind?_eq_some.1 hl]
    exact .number h
  obtain ⟨t, ht⟩ := ValueType.exists_common?_of_joins hkw hlw hjoins
  obtain ⟨hjoins', hnull⟩ := ValueType.joins_of_common? hkw hlw ht
  exact ⟨t, implicit_eq ht, hjoins'.unique hjoins, hnull⟩

end Pairing

/-- A number whose kind is not floating is widened to an equal one of any such kind that its kind may
widen to, unless it is a character beyond 16 bits that is widened to 16 bits; that is out of range. Operands
that are numbers of such kinds are always brought to a common type, and where that is not floating either
the same becomes of their numbers. -/
theorem widenings_exact (n : Number) (left right : Expr) (k l m : NumericKind) :
    (n.kind.isExact = true → k.isExact = true → n.kind.canWidenTo k = true →
      n.Widened k (n.convert k)) ∧
    (left.type.numericKind? = some k → right.type.numericKind? = some l → k.isExact = true →
      l.isExact = true → k.common? l = some m → m.isExact = true →
        (Pairing.implicit left right).done = true ∧
        (∀ env v, left.value env = .ok v → v.Inhabits left.type →
          v.Widened m ((Pairing.implicit left right).left.value env)) ∧
        ∀ env v, right.value env = .ok v → v.Inhabits right.type →
          v.Widened m ((Pairing.implicit left right).right.value env)) := by
  refine ⟨Number.widened_convert, fun hk hl hke hle h hme => ?_⟩
  obtain ⟨t, heq, ht, hnull⟩ := Pairing.implicit_numbers hk hl h
  have ⟨hkm, hlm⟩ := (NumericKind.canWidenTo_iff_of_common? h m).1 m.canWidenTo_self
  have hleft : left.type.acceptsNull = true → t.acceptsNull = true := by simp +contextual [hnull]
  have hright : right.type.acceptsNull = true → t.acceptsNull = true := by simp +contextual [hnull]
  rw [heq]
  exact ⟨rfl, fun env v => Expr.widened_converted hk ht hke hme hkm hleft,
    fun env v => Expr.widened_converted hl ht hle hme hlm hright⟩

/-- A character of one byte. -/
def smallA : Number := .integral .char 97 (by decide)

/-- A character beyond 16 bits. -/
def grin : Number := .integral .char 0x1f600 (by decide)

/-- An operand that is a character. -/
def character : Expr := .parameter 0 (some "c") (.number .char)

/-- An operand that is an unsigned number of 16 bits. -/
def word : Expr := .parameter 1 (some "n") (.number .ushort)

/-- A character of one byte is the number of its code, also where it is brought together with a number. -/
theorem widenings_exact_smallA :
    smallA.kind.isExact = true ∧ smallA.kind.canWidenTo .ushort = true ∧
      smallA.Widened .ushort (smallA.convert .ushort) ∧
      character.type.numericKind? = some .char ∧ word.type.numericKind? = some .ushort ∧
      NumericKind.char.common? .ushort = some .ushort ∧
      character.value [.number smallA] = .ok (.number smallA) ∧
      (Value.number smallA).Inhabits character.type ∧
      (Value.number smallA).Widened .ushort
        ((Pairing.implicit character word).left.value [.number smallA]) := by
  have hvalue : character.value [.number smallA] = .ok (.number smallA) := rfl
  have hinhabits : (Value.number smallA).Inhabits character.type := rfl
  have hnumber := (widenings_exact smallA character word .ushort .ushort .ushort).1 rfl rfl rfl
  have hpair := (widenings_exact smallA character word .char .ushort .ushort).2 rfl rfl rfl rfl rfl rfl
  exact ⟨rfl, rfl, hnumber, rfl, rfl, rfl, hvalue, hinhabits, hpair.2.1 _ _ hvalue hinhabits⟩

/-- A character beyond 16 bits may be widened to 16 bits by the table, but it is out of range. An operand
with such a value cannot be evaluated any more once it has been brought together with a number of 16
bits. -/
theorem outOfRange_grin :
    grin.kind.canWidenTo .ushort = true ∧ grin.convert .ushort = .error (.outOfRange grin .ushort) ∧
      (Pairing.implicit character word).done = true ∧
      character.value [.number grin] = .ok (.number grin) ∧
      (Pairing.implicit character word).left.value [.number grin] =
        .error (.conversion (.outOfRange grin .ushort)) :=
  ⟨rfl, rfl, rfl, rfl, rfl⟩

end Parlance
