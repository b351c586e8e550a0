import Parlance.Proofs.Operations

/-!
# Decimals read back

The numeral of a decimal is an optional minus and digits with at most one point among them
(`Decimal.Numeral`), and it is read as the decimal in normal form, which has the same value
(`Decimal.parse?_print`).
-/

namespace Parlance.Decimal

variable {negative pointed seen : Bool} {coefficient scale n : Nat} {ds fs rest cs : List Char} {c : Char}

/-! ## Digits -/

theorem digit?_of_isDigit (h : c.isDigit = true) : digit? c = some (c.toNat - '0'.toNat) := by
  rw [digit?, if_pos h]

theorem le_ofDigitChars (ds : List Char) (n : Nat) : n ≤ Nat.ofDigitChars 10 ds n := by
  induction ds generalizing n with
  | nil => exact Nat.le_refl n
  | cons c ds ih =>
    rw [Nat.ofDigitChars_cons]
    have := ih (10 * n + (c.toNat - '0'.toNat))
    omega

theorem ofDigitChars_replicate_zero (count : Nat) (ds : List Char) :
    Nat.ofDigitChars 10 (List.replicate count '0' ++ ds) 0 = Nat.ofDigitChars 10 ds 0 := by
  induction count with
  | zero => rfl
  | succ count ih =>
    rw [List.replicate_succ, List.cons_append, Nat.ofDigitChars_cons]
    exact ih

/-- A digit for which there is room is read into the coefficient. -/
theorem parseDigits?_digit (hc : c.isDigit = true)
    (hroom : 10 * coefficient + (c.toNat - '0'.toNat) < limit) (hplaces : pointed = true → scale < maxScale) :
    parseDigits? negative pointed seen coefficient scale (c :: rest) =
      parseDigits? negative pointed true (10 * coefficient + (c.toNat - '0'.toNat))
        (if pointed then scale + 1 else scale) rest := by
  rw [Nat.mul_comm] at hroom ⊢
  have hplace : ¬ (pointed && (maxScale ≤ scale || limit ≤ coefficient * 10 + (c.toNat - '0'.toNat))) = true := by
    simp only [Bool.and_eq_true, Bool.or_eq_true, decide_eq_true_eq, not_and, not_or, Nat.not_le]
    exact fun hp => ⟨hplaces hp, hroom⟩
  rw [parseDigits?, digit?_of_isDigit hc]
  dsimp only
  rw [if_neg hplace, if_neg (Nat.not_le.2 hroom)]

/-- Digits are read into the coefficient while there is room for all of them. -/
theorem parseDigits?_append (hds : ∀ c ∈ ds, c.isDigit = true)
    (hroom : Nat.ofDigitChars 10 ds coefficient < limit)
    (hplaces : pointed = true → scale + ds.length ≤ maxScale) :
    parseDigits? negative pointed seen coefficient scale (ds ++ rest) =
      parseDigits? negative pointed (seen || !ds.isEmpty) (Nat.ofDigitChars 10 ds coefficient)
        (if pointed then scale + ds.length else scale) rest := by
  induction ds generalizing seen coefficient scale with
  | nil => simp [Nat.ofDigitChars]
  | cons c ds ih =>
    obtain ⟨hc, hds⟩ := List.forall_mem_cons.1 hds
    rw [List.length_cons] at hplaces ⊢
    rw [Nat.ofDigitChars_cons] at hroom ⊢
    have hnext := (le_ofDigitChars ds _).trans_lt hroom
    have hplaces' : pointed = true → (if pointed then scale + 1 else scale) + ds.length ≤ maxScale := by
      intro hp
      have := hplaces hp
      rw [if_pos hp]
      omega
    have hplace : pointed = true → scale < maxScale := fun hp => by
      have := hplaces hp
      omega
    rw [List.cons_append, parseDigits?_digit hc hnext hplace, ih hds hroom hplaces']
    cases pointed <;> simp [Nat.add_assoc, Nat.add_comm 1]

/-! ## Numerals -/

/-- Digits, with at most one point among them. -/
inductive Numeral : List Char → Prop
  | whole {ds : List Char} (nonempty : ds ≠ []) (digits : ∀ c ∈ ds, c.isDigit = true) : Numeral ds
  | fraction {ds fs : List Char} (nonempty : ds ≠ []) (digits : ∀ c ∈ ds, c.isDigit = true)
      (places : fs ≠ []) (digits' : ∀ c ∈ fs, c.isDigit = true) : Numeral (ds ++ '.' :: fs)

/-- The digits of a coefficient, with noughts before them for as many places as there are. -/
theorem positional_eq (coefficient scale : Nat) : ∃ ds fs, ds ≠ [] ∧ (∀ c ∈ ds ++ fs, c.isDigit = true) ∧
    fs.length = scale ∧ Nat.ofDigitChars 10 (ds ++ fs) 0 = coefficient ∧
    positional coefficient scale = if scale = 0 then ds else ds ++ '.' :: fs := by
  have hdigits : ∀ c ∈ Nat.toDigits 10 coefficient, c.isDigit = true := fun c =>
    Nat.isDigit_of_mem_toDigits (by omega) (by omega)
  have hvalue : Nat.ofDigitChars 10 (Nat.toDigits 10 coefficient) 0 = coefficient :=
    Nat.ofDigitChars_toDigits (by omega) (by omega)
  have hlength : 0 < (Nat.toDigits 10 coefficient).length := Nat.length_toDigits_pos
  by_cases hscale : scale = 0
  · subst hscale
    refine ⟨Nat.toDigits 10 coefficient, [], Nat.toDigits_ne_nil, ?_, rfl, ?_, rfl⟩
    · rwa [List.append_nil]
    · rwa [List.append_nil]
  · generalize hpadded : List.replicate (scale + 1 - (Nat.toDigits 10 coefficient).length) '0' ++
      Nat.toDigits 10 coefficient = padded
    have hlong : scale < padded.length := by
      rw [← hpadded, List.length_append, List.length_replicate]
      omega
    refine ⟨padded.take (padded.length - scale), padded.drop (padded.length - scale), ?_, ?_, ?_, ?_, ?_⟩
    · rw [← List.length_pos_iff, List.length_take]
      omega
    · rw [List.take_append_drop, ← hpadded]
      intro c hc
      rcases List.mem_append.1 hc with hc | hc
      · rw [List.eq_of_mem_replicate hc]
        rfl
      · exact hdigits c hc
    · rw [List.length_drop]
      omega
    · rw [List.take_append_drop, ← hpadded, ofDigitChars_replicate_zero, hvalue]
    · rw [positional, if_neg hscale, if_neg hscale, hpadded]

theorem numeral_positional (coefficient scale : Nat) : Numeral (positional coefficient scale) := by
  obtain ⟨ds, fs, hds, hall, hlength, -, heq⟩ := positional_eq coefficient scale
  obtain ⟨hwhole, hplaces⟩ := List.forall_mem_append.1 hall
  rw [heq]
  split
  · exact .whole hds hwhole
  · rename_i hscale
    exact .fraction hds hwhole (List.length_pos_iff.1 (by omega)) hplaces

/-- The digits of a number are read as the number. -/
theorem parseDigits?_positional (hcoefficient : coefficient < limit) (hscale : scale ≤ maxScale) :
    parseDigits? negative false false 0 0 (positional coefficient scale) =
      make? negative coefficient scale := by
  obtain ⟨ds, fs, hds, hall, hlength, hvalue, heq⟩ := positional_eq coefficient scale
  obtain ⟨hwhole, hplaces⟩ := List.forall_mem_append.1 hall
  rw [Nat.ofDigitChars_append] at hvalue
  have hroom : Nat.ofDigitChars 10 ds 0 < limit :=
    ((le_ofDigitChars fs _).trans_eq hvalue).trans_lt hcoefficient
  have hread (rest : List Char) : parseDigits? negative false false 0 0 (ds ++ rest) =
      parseDigits? negative false true (Nat.ofDigitChars 10 ds 0) 0 rest := by
    have hseen : ds.isEmpty = false := by simpa using hds
    rw [parseDigits?_append hwhole hroom (by simp), hseen]
    rfl
  rw [heq]
  split
  · rename_i hzero
    obtain rfl := List.length_eq_zero_iff.1 (hlength.trans hzero)
    rw [← List.append_nil ds, hread, parseDigits?, if_pos rfl, ← hvalue, hzero]
    rfl
  · rw [hread, parseDigits?]
    have hpoint : digit? '.' = none := rfl
    have hpart : Nat.ofDigitChars 10 fs (Nat.ofDigitChars 10 ds 0) < limit := by rwa [hvalue]
    have hread' := @parseDigits?_append negative true true (Nat.ofDigitChars 10 ds 0) 0 fs [] hplaces hpart
      fun _ => by omega
    rw [List.append_nil, hvalue, if_pos rfl, hlength, Nat.zero_add] at hread'
    simp only [hpoint]
    exact hread'

/-! ## Numbers -/

theorem head_of_numeral (h : Numeral cs) : ∃ c rest, cs = c :: rest ∧ c.isDigit = true := by
  have hhead {ds : List Char} (hds : ds ≠ []) (h : ∀ c ∈ ds, c.isDigit = true) :
      ∃ c rest, ds = c :: rest ∧ c.isDigit = true := by
    obtain ⟨c, rest, rfl⟩ := List.exists_cons_of_ne_nil hds
    exact ⟨c, rest, rfl, h c List.mem_cons_self⟩
  cases h with
  | whole nonempty digits => exact hhead nonempty digits
  | fraction nonempty digits =>
    obtain ⟨c, rest, rfl, hc⟩ := hhead nonempty digits
    exact ⟨c, rest ++ '.' :: _, rfl, hc⟩

theorem parsePlain?_of_numeral (h : Numeral cs) :
    parsePlain? cs = parseDigits? false false false 0 0 cs := by
  obtain ⟨c, rest, rfl, hc⟩ := head_of_numeral h
  unfold parsePlain?
  split
  · rename_i heq
    cases heq
    cases hc
  · rename_i heq
    cases heq
    cases hc
  · rfl

/-- The characters of a number as it stands. -/
theorem toList_printExact (d : Decimal) : d.printExact.toList =
    (if d.negative then ['-'] else []) ++ positional d.coefficient d.scale := by
  rw [printExact, String.toList_ofList]

theorem parsePlain?_printExact (d : Decimal) :
    parsePlain? d.printExact.toList = make? d.negative d.coefficient d.scale := by
  have hdigits {negative : Bool} := @parseDigits?_positional negative _ _ d.coefficient_lt d.scale_le
  rw [toList_printExact]
  cases d.negative with
  | true => exact hdigits
  | false => exact (parsePlain?_of_numeral (numeral_positional _ _)).trans hdigits

theorem stripZeros_eq (coefficient scale : Nat) :
    (stripZeros coefficient scale).1 * Nat.pow 10 (scale - (stripZeros coefficient scale).2) =
      coefficient := by
  induction scale generalizing coefficient with
  | zero => simp [stripZeros]
  | succ scale ih =>
    have hle := (stripZeros_le (coefficient / 10) scale).2
    rw [stripZeros]
    split
    · rw [Nat.succ_sub hle]
      show _ * (Nat.pow 10 _ * 10) = _
      rw [← Nat.mul_assoc, ih]
      omega
    · simp

theorem strip_ne_zero {d : Decimal} (h : d.coefficient ≠ 0) : d.strip.coefficient ≠ 0 := by
  intro hzero
  have := stripZeros_eq d.coefficient d.scale
  rw [show (stripZeros d.coefficient d.scale).1 = 0 from hzero, Nat.zero_mul] at this
  exact h this.symm

/-- The normal form of a number has a sign only if it is not zero. -/
theorem make?_normalize (d : Decimal) :
    make? d.normalize.negative d.normalize.coefficient d.normalize.scale = some d.normalize := by
  have hsign : (d.normalize.negative && d.normalize.coefficient != 0) = d.normalize.negative := by
    rw [normalize]
    split
    · rfl
    · rename_i hzero
      have hne : d.strip.coefficient ≠ 0 := strip_ne_zero (by simpa [isZero] using hzero)
      simp [hne]
  rw [make?, hsign, ofParts?, dif_pos ⟨d.normalize.coefficient_lt, d.normalize.scale_le⟩]

/-- The numeral of a decimal is read as its normal form. -/
theorem parse?_print (d : Decimal) : parse? d.print = some d.normalize := by
  rw [parse?, print, parsePlain?_printExact, make?_normalize]
  rfl

/-- The normal form of a decimal has its value. -/
theorem compare_normalize (d : Decimal) : d.normalize.compare d = .eq := by
  rw [normalize]
  split
  · rename_i hzero
    have hcoefficient : d.coefficient = 0 := by simpa [isZero] using hzero
    simp [compare, signed, zero, hcoefficient]
  · have hpow : d.strip.coefficient * 10 ^ d.scale = d.coefficient * 10 ^ d.strip.scale := by
      have hle : d.strip.scale ≤ d.scale := (stripZeros_le d.coefficient d.scale).2
      have hstrip : d.strip.coefficient * 10 ^ (d.scale - d.strip.scale) = d.coefficient :=
        stripZeros_eq d.coefficient d.scale
      calc d.strip.coefficient * 10 ^ d.scale
          = d.strip.coefficient * (10 ^ (d.scale - d.strip.scale) * 10 ^ d.strip.scale) := by
            rw [← Nat.pow_add, Nat.sub_add_cancel hle]
        _ = d.coefficient * 10 ^ d.strip.scale := by rw [← Nat.mul_assoc, hstrip]
    have hsigned : d.strip.signed * (Nat.pow 10 d.scale : Nat) = d.signed * (Nat.pow 10 d.strip.scale : Nat) := by
      have hnegative : d.strip.negative = d.negative := rfl
      have hcast : (d.strip.coefficient : Int) * (10 ^ d.scale : Nat) =
          d.coefficient * (10 ^ d.strip.scale : Nat) := by exact_mod_cast hpow
      rw [signed, signed, hnegative]
      split
      · rw [Int.neg_mul, Int.neg_mul]
        exact congrArg Neg.neg hcast
      · exact hcast
    rw [compare, hsigned]
    exact Std.ReflCmp.compare_self

end Parlance.Decimal
