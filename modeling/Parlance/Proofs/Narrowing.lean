import Parlance.Proofs.ExactNumbers

/-!
# Exact conversions

A number whose kind is not floating is cut toward zero where it is converted to an integral kind
(`Decimal.truncate_eq`). The conversion succeeds if that whole number is one of the kind, and else the
number is out of range (`Number.convert_of_holds`). To a decimal it always goes, with its value
(`Number.exists_convert_decimal`). So a whole number that is converted and converted back is what it was
(`conversions_exact`).
-/

namespace Parlance

/-- The whole number that is left of a rational number which is cut toward zero. -/
def towardZero (x : ℚ) : ℤ := if 0 ≤ x then ⌊x⌋ else ⌈x⌉

@[simp] theorem towardZero_intCast (i : ℤ) : towardZero i = i := by
  unfold towardZero
  split <;> simp

theorem towardZero_neg (x : ℚ) : towardZero (-x) = -towardZero x := by
  unfold towardZero
  rcases lt_trichotomy x 0 with h | rfl | h
  · rw [if_pos (neg_nonneg.2 h.le), if_neg h.not_ge, Int.floor_neg]
  · simp
  · rw [if_neg (by simpa using h), if_pos h.le, Int.ceil_neg]

namespace Decimal

theorem towardZero_natDiv (n m : Nat) : towardZero (n / m) = (n / m : Nat) := by
  rw [towardZero, if_pos (by positivity)]
  exact Rat.floor_intCast_div_natCast n m

/-- A decimal without its places is cut toward zero. -/
theorem truncate_eq (d : Decimal) : d.truncate = towardZero d.toRat := by
  have hpow : (10 ^ d.scale : ℚ) = (Nat.pow 10 d.scale : ℕ) := by
    rw [Nat.pow_eq]
    push_cast
    rfl
  have hcut := towardZero_natDiv d.coefficient (Nat.pow 10 d.scale)
  rw [truncate, toRat, signed, hpow, ← hcut]
  split
  · rw [Int.cast_neg, Int.cast_natCast, neg_div, towardZero_neg]
  · rw [Int.cast_natCast]

end Decimal

namespace Number

variable {n m : Number} {k : NumericKind} {x : ℚ} {i : Int}

theorem convert?_eq (hk : k.isIntegral = true) (hx : n.toRat? = some x) :
    n.convert? k = ofInt? k (towardZero x) := by
  cases n with
  | integral l i hi =>
    cases hx
    rw [convert?_integral hk, towardZero_intCast]
  | decimal d =>
    cases hx
    have hne : (decimal d).kind ≠ k := by
      rintro rfl
      cases hk
    unfold convert?
    rw [if_neg hne, ← d.truncate_eq]
    cases k with
    | float | double | decimal => cases hk
    | _ => rfl
  | _ => cases hx

/-- A number that is cut to a whole number of an integral kind is converted to that. -/
theorem convert_of_holds (hx : n.toRat? = some x) (hcut : towardZero x = i) (h : k.Holds i) :
    n.convert k = .ok (.integral k i h) := by
  rw [convert, convert?_eq (NumericKind.isIntegral_of_holds h) hx, hcut, ofInt?, dif_pos h]

/-- A number that is cut to any other whole number is out of range. -/
theorem convert_of_not_holds (hk : k.isIntegral = true) (hx : n.toRat? = some x)
    (h : ¬ k.Holds (towardZero x)) : n.convert k = .error (.outOfRange n k) := by
  rw [convert, convert?_eq hk hx, ofInt?, dif_neg h]

/-- A whole number that has been converted to another integral kind is converted back to what it was. -/
theorem convert_back (hn : n.kind.isIntegral = true) (hk : k.isIntegral = true)
    (h : n.convert k = .ok m) : m.convert n.kind = .ok n := by
  cases n with
  | integral l i hi =>
    by_cases hholds : k.Holds i
    · rw [convert_of_holds rfl (towardZero_intCast i) hholds] at h
      cases h
      exact convert_of_holds rfl (towardZero_intCast i) hi
    · rw [convert_of_not_holds hk rfl (by rwa [towardZero_intCast])] at h
      cases h
  | _ => cases hn

theorem exists_convert_decimal (hx : n.toRat? = some x) :
    ∃ m, n.convert .decimal = .ok m ∧ m.kind = .decimal ∧ m.toRat? = some x := by
  cases n with
  | integral l i hi =>
    cases hx
    obtain ⟨d, hd, hvalue⟩ := exists_decimal hi
    have hne : l ≠ .decimal := by
      rintro rfl
      cases hi
    refine ⟨.decimal d, ?_, rfl, congrArg some hvalue⟩
    rw [convert, convert?, kind, if_neg hne, toDecimal?, hd]
    rfl
  | decimal d => exact ⟨.decimal d, rfl, rfl, hx⟩
  | _ => cases hx

end Number

/-- A number whose kind is not floating is converted to an integral kind if it is cut toward zero to a whole
number of that kind, which it then is; else it is out of range. A whole number is what it was when it is
converted back. To a decimal the number is converted with its value. -/
theorem conversions_exact {n : Number} {x : ℚ} (hx : n.toRat? = some x) :
    (∀ k : NumericKind, k.isIntegral = true →
      ((∃ m, n.convert k = .ok m) ↔ k.Represents (towardZero x)) ∧
      (∀ m, n.convert k = .ok m → m.kind = k ∧ m.toInt? = some (towardZero x) ∧
        (n.kind.isIntegral = true → m.convert n.kind = .ok n)) ∧
      (¬ k.Represents (towardZero x) → n.convert k = .error (.outOfRange n k))) ∧
    ∃ m, n.convert .decimal = .ok m ∧ m.kind = .decimal ∧ m.toRat? = some x := by
  refine ⟨fun k hk => ?_, Number.exists_convert_decimal hx⟩
  rw [← NumericKind.holds_iff_represents]
  by_cases h : k.Holds (towardZero x)
  · have hconvert := Number.convert_of_holds hx rfl h
    refine ⟨⟨fun _ => h, fun _ => ⟨_, hconvert⟩⟩, fun m hm => ?_, fun hnot => absurd h hnot⟩
    obtain rfl := Except.ok.inj (hconvert.symm.trans hm)
    exact ⟨rfl, rfl, fun hn => Number.convert_back hn hk hm⟩
  · have hconvert := Number.convert_of_not_holds hk hx h
    have hfails (m : Number) : n.convert k ≠ .ok m := by
      rw [hconvert]
      nofun
    exact ⟨⟨fun ⟨m, hm⟩ => absurd hm (hfails m), fun hholds => absurd hholds h⟩,
      fun m hm => absurd hm (hfails m), fun _ => hconvert⟩

/-- Almost two below zero. -/
def nearlyMinusTwo : Number := .decimal ⟨true, 1999, 3, by decide, by decide⟩

/-- It is cut to minus one, which is a number of a byte with a sign but none of a byte without a sign. -/
theorem conversions_exact_nearlyMinusTwo :
    nearlyMinusTwo.toRat? = some (-1999 / 1000) ∧ towardZero (-1999 / 1000) = -1 ∧
      nearlyMinusTwo.convert .sbyte = .ok (.integral .sbyte (-1) (by decide)) ∧
      nearlyMinusTwo.convert .byte = .error (.outOfRange nearlyMinusTwo .byte) := by
  have hx : nearlyMinusTwo.toRat? = some (-1999 / 1000) := by
    norm_num [nearlyMinusTwo, Number.toRat?, Decimal.toRat, Decimal.signed]
  have hcut : towardZero (-1999 / 1000) = -1 := by
    rw [towardZero, if_neg (by norm_num), Int.ceil_eq_iff]
    norm_num
  have h := (conversions_exact hx).1
  have hnot : ¬ NumericKind.byte.Represents (towardZero (-1999 / 1000)) := by
    rw [hcut, ← NumericKind.holds_iff_represents]
    decide
  have hsbyte : nearlyMinusTwo.convert .sbyte = .ok (.integral .sbyte (-1) (by decide)) := rfl
  exact ⟨hx, hcut, hsbyte, (h .byte rfl).2.2 hnot⟩

end Parlance
