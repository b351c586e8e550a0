import Parlance.Proofs.Operations

/-!
# Decimals for other numbers

Every whole number of 64 bits has a decimal, and so does every double that decimals reach up to: one
whose magnitude is below the bound of coefficients (`Decimal.spans`).
-/

namespace Parlance

namespace Decimal

/-- Whether a double is finite and its magnitude is below the bound of coefficients. -/
def spans (x : Float) : Bool :=
  match x.toModel.unpack with
  | .notANumber | .infinity _ => false
  | .zero _ => true
  | .finite _ mantissa exponent _ =>
    mantissa * Nat.pow 2 exponent.toNat < limit * Nat.pow 2 (-exponent).toNat

theorem make?_isSome {negative : Bool} {coefficient scale : Nat} (h : coefficient < limit)
    (hs : scale ≤ 28) : (make? negative coefficient scale).isSome = true := by
  rw [make?, ofParts?, dif_pos ⟨h, hs⟩]
  rfl

theorem ofInt?_isSome {n : Int} (h : NumericKind.long.Holds n) : (ofInt? n).isSome = true := by
  have hn := Number.holds_long.1 h
  refine make?_isSome ?_ (by omega)
  have : limit = 0x1000000000000000000000000 := rfl
  omega

/-! ## Magnitudes -/

theorem tenth_le (n : Nat) : tenth n ≤ n := by
  unfold tenth
  split <;> omega

namespace Scaled

theorem halve_bounds (s : Scaled) (h : s.coefficient < limit) (count : Nat) :
    (s.halve count).coefficient < limit ∧ (s.halve count).power ≤ s.power + count := by
  induction count generalizing s with
  | zero => exact ⟨h, by simp [halve]⟩
  | succ count ih =>
    unfold halve
    have hhalf : s.coefficient / 2 < limit := (Nat.div_le_self _ _).trans_lt h
    split
    · obtain ⟨hc, hp⟩ := ih ⟨s.coefficient / 2, s.power + 1⟩ hhalf
      exact ⟨hc, Int.le_trans hp (by grind)⟩
    · split
      · rename_i hroom
        obtain ⟨hc, hp⟩ := ih ⟨s.coefficient * 5, s.power⟩ hroom
        exact ⟨hc, Int.le_trans hp (by grind)⟩
      · obtain ⟨hc, hp⟩ := ih ⟨s.coefficient / 2, s.power + 1⟩ hhalf
        exact ⟨hc, Int.le_trans hp (by grind)⟩

/-- While there is room for all powers of two, none is lost. -/
theorem fifth?_eq (s : Scaled) (count : Nat) (h : s.coefficient * Nat.pow 2 count < limit) :
    s.fifth? count = some ⟨s.coefficient * Nat.pow 2 count, s.power - count⟩ := by
  induction count generalizing s with
  | zero => simp [fifth?]
  | succ count ih =>
    have hpow : s.coefficient * 2 * Nat.pow 2 count = s.coefficient * Nat.pow 2 (count + 1) := by
      rw [Nat.mul_assoc, Nat.mul_comm 2]
      rfl
    have hroom : s.coefficient < Nat.pow 2 95 := by
      have : s.coefficient * 2 ≤ s.coefficient * 2 * Nat.pow 2 count :=
        Nat.le_mul_of_pos_right _ (Nat.two_pow_pos count)
      have : limit = 2 * Nat.pow 2 95 := rfl
      omega
    rw [fifth?, if_pos hroom, ih ⟨s.coefficient * 2, s.power - 1⟩ (by rwa [hpow]), hpow]
    simp only [Option.some.injEq, Scaled.mk.injEq, true_and]
    omega

/-- At most `places` places after the point, and none before it. -/
structure Placed (s : Scaled) (places : Nat) : Prop where
  coefficient_lt : s.coefficient < limit
  power_le : s.power ≤ 0
  le_power : -(places : Int) ≤ s.power

theorem Placed.lower {s : Scaled} {count : Nat} (h : s.Placed count) :
    (s.lower count).Placed maxScale := by
  induction count generalizing s with
  | zero => exact ⟨h.coefficient_lt, h.power_le, by have := h.le_power; simp [Scaled.lower]; omega⟩
  | succ count ih =>
    have hlt := h.coefficient_lt
    have hge := h.le_power
    unfold Scaled.lower
    split
    · rename_i hplaces
      exact ⟨hlt, h.power_le, hplaces⟩
    · rename_i hplaces
      split
      · exact ⟨by decide, Int.le_refl 0, by decide⟩
      · refine ih ⟨(tenth_le _).trans_lt hlt, ?_, ?_⟩
        · simp only [maxScale] at hplaces ⊢
          omega
        · simp only
          omega

theorem Placed.cut {s : Scaled} {places : Nat} (h : s.Placed places) (count : Nat) :
    (s.cut count).Placed places := by
  induction count generalizing s with
  | zero => exact h
  | succ count ih =>
    have hge := h.le_power
    unfold Scaled.cut
    split
    · rename_i hcut
      simp only [Bool.and_eq_true, decide_eq_true_eq] at hcut
      refine ih ⟨(tenth_le _).trans_lt h.coefficient_lt, ?_, ?_⟩ <;> simp only <;> omega
    · exact h

end Scaled

theorem ofMagnitude?_isSome {negative : Bool} {mantissa : Nat} {exponent : Int}
    (hmantissa : mantissa < limit)
    (h : mantissa * Nat.pow 2 exponent.toNat < limit * Nat.pow 2 (-exponent).toNat) :
    (ofMagnitude? negative mantissa exponent).isSome = true := by
  -- What is left of the powers of two and five are powers of ten, all of them negative.
  have hscaled : ∃ s : Scaled, ((⟨mantissa, exponent⟩ : Scaled).halve (-exponent).toNat).fifth?
      exponent.toNat = some s ∧ s.coefficient < limit ∧ s.power ≤ 0 := by
    by_cases he : exponent ≤ 0
    · rw [Int.toNat_of_nonpos he]
      obtain ⟨hc, hp⟩ := Scaled.halve_bounds ⟨mantissa, exponent⟩ hmantissa (-exponent).toNat
      exact ⟨_, rfl, hc, Int.le_trans hp (by grind)⟩
    · rw [show (-exponent).toNat = 0 by omega] at h ⊢
      have hroom : mantissa * Nat.pow 2 exponent.toNat < limit := by simpa using h
      refine ⟨_, Scaled.fifth?_eq ⟨mantissa, exponent⟩ _ hroom, hroom, ?_⟩
      simp only
      omega
  obtain ⟨s, hs, hlt, hle⟩ := hscaled
  have hplaced : ((s.lower (-s.power).toNat).cut maxScale).Placed maxScale :=
    (Scaled.Placed.lower ⟨hlt, hle, by omega⟩).cut maxScale
  have hstrip := stripZeros_le ((s.lower (-s.power).toNat).cut maxScale).coefficient
    (-((s.lower (-s.power).toNat).cut maxScale).power).toNat
  have hplaces := hplaced.le_power
  simp only [ofMagnitude?, hs, Option.bind_eq_bind, Option.bind_some, Int.toNat_of_nonpos hle,
    Scaled.raise?]
  refine make?_isSome (hstrip.1.trans_lt hplaced.coefficient_lt) (hstrip.2.trans ?_)
  simp only [maxScale] at hplaces ⊢
  omega

/-! ## Doubles -/

open Float.Model in
theorem mantissa_lt {x : Float} {sign : UnpackedFloat.Sign} {mantissa : Nat} {exponent : Int}
    {pos : 0 < mantissa} (h : x.toModel.unpack = .finite sign mantissa exponent pos) :
    mantissa < limit := by
  have hlimit {n m : Nat} (hn : n < 2 ^ m) (hm : m ≤ 96) : n < limit :=
    hn.trans_le (Nat.pow_le_pow_right (by decide) hm)
  unfold Float.Model.unpack UnpackedFloat.unpack at h
  obtain ⟨-, h⟩ | ⟨-, h⟩ := ite_eq_iff.1 h
  · obtain ⟨-, h⟩ | ⟨-, h⟩ := ite_eq_iff.1 h <;> cases h
  · obtain ⟨-, h⟩ | ⟨-, h⟩ := ite_eq_iff.1 h
    · obtain ⟨_, h⟩ | ⟨_, h⟩ := dite_eq_iff.1 h
      · cases h
      · cases h
        exact hlimit (BitVec.isLt _) (by decide)
    · cases h
      exact hlimit (BitVec.isLt _) (by decide)

theorem ofDouble?_isSome {x : Float} (h : spans x = true) : (ofDouble? x).isSome = true := by
  rw [spans] at h
  rw [ofDouble?]
  cases hx : x.toModel.unpack with
  | notANumber =>
    rw [hx] at h
    cases h
  | infinity =>
    rw [hx] at h
    cases h
  | zero => rfl
  | finite sign mantissa exponent =>
    rw [hx] at h
    exact ofMagnitude?_isSome (mantissa_lt hx) (of_decide_eq_true h)

end Decimal

end Parlance
