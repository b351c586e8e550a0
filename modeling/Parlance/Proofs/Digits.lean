import Mathlib.Algebra.Ring.Nat
import Parlance.Guid
import Parlance.Proofs.Literals
import Parlance.Proofs.Numerals

/-!
# Numbers with a least count of digits

Moments and guids are written in digits with zeros in front. The digits are as many as asked for, where the
number has no more of its own (`Text.length_padded`), and their value is the number
(`Text.decimalValue_padded`, `Text.hexValue?_padded`). So a guid is read as it is written
(`Guid.parse?_print`).
-/

namespace Parlance

namespace Text

variable {base width n : Nat}

theorem length_padded (hbase : 1 < base) (hwidth : 0 < width) (hn : n < base ^ width) :
    (padded base width n).length = width := by
  have hle := (Nat.length_toDigits_le_iff hbase hwidth).2 hn
  rw [padded, List.length_append, List.length_replicate]
  omega

/-! ## Decimal digits -/

theorem isDigit_of_mem_padded {c : Char} (hc : c ∈ padded 10 width n) : c.isDigit = true := by
  rcases List.mem_append.1 hc with hc | hc
  · rw [List.eq_of_mem_replicate hc]
    rfl
  · exact Nat.isDigit_of_mem_toDigits (by decide) (Nat.le_refl 10) hc

theorem decimalValue_eq_ofDigitChars (cs : List Char) : decimalValue cs = Nat.ofDigitChars 10 cs 0 := by
  unfold decimalValue Nat.ofDigitChars
  congr 1
  funext n c
  rw [Nat.mul_comm]
  rfl

theorem decimalValue_padded (width n : Nat) : decimalValue (padded 10 width n) = n := by
  rw [decimalValue_eq_ofDigitChars, padded, Decimal.ofDigitChars_replicate_zero,
    Nat.ofDigitChars_toDigits (by decide) (by decide)]

/-! ## Hexadecimal digits -/

theorem hexDigit?_digitChar (h : n < 16) : hexDigit? n.digitChar = some n := by
  revert n
  decide

theorem hexValue?_append_singleton (cs : List Char) (c : Char) :
    hexValue? (cs ++ [c]) = (hexValue? cs).bind fun n => (hexDigit? c).map (n * 16 + ·) := by
  rw [hexValue?, List.foldlM_append]
  apply bind_congr
  intro n
  rw [List.foldlM_cons]
  exact bind_pure _

theorem hexValue?_toDigits (n : Nat) : hexValue? (Nat.toDigits 16 n) = some n := by
  induction n using Nat.strongRecOn with
  | ind n ih =>
    rw [Nat.toDigits_eq_if (by decide)]
    split
    · rename_i hlt
      rw [← List.nil_append [n.digitChar], hexValue?_append_singleton, hexDigit?_digitChar hlt]
      exact congrArg some (Nat.zero_add n)
    · rename_i hle
      rw [hexValue?_append_singleton, ih (n / 16) (by omega), Option.bind_some,
        hexDigit?_digitChar (Nat.mod_lt n (by decide)), Option.map_some]
      congr 1
      omega

theorem hexValue?_padded (width n : Nat) : hexValue? (padded 16 width n) = some n := by
  have hzeros (count : Nat) (ds : List Char) :
      hexValue? (List.replicate count '0' ++ ds) = hexValue? ds := by
    induction count with
    | zero => rfl
    | succ count ih => exact ih
  rw [padded, hzeros, hexValue?_toDigits]

theorem exists_digitChar {c : Char} (hc : c ∈ Nat.toDigits 16 n) : ∃ d < 16, c = Nat.digitChar d := by
  induction n using Nat.strongRecOn with
  | ind n ih =>
    rw [Nat.toDigits_eq_if (by decide)] at hc
    split at hc
    · rename_i hlt
      exact ⟨n, hlt, List.mem_singleton.1 hc⟩
    · rename_i hle
      rcases List.mem_append.1 hc with hc | hc
      · exact ih (n / 16) (by omega) hc
      · exact ⟨n % 16, Nat.mod_lt n (by decide), List.mem_singleton.1 hc⟩

theorem isBlank_of_mem_padded {c : Char} (hc : c ∈ padded 16 width n) : isBlank c = false := by
  rcases List.mem_append.1 hc with hc | hc
  · rw [List.eq_of_mem_replicate hc]
    decide
  · have hall : ∀ d < 16, isBlank (Nat.digitChar d) = false := by decide
    obtain ⟨d, hd, rfl⟩ := exists_digitChar hc
    exact hall d hd

/-! ## Blanks -/

theorem trim_of_forall {s : String} (h : ∀ c ∈ s.toList, isBlank c = false) : trim s = s := by
  have hnone (cs : List Char) (hcs : ∀ c ∈ cs, isBlank c = false) : cs.dropWhile isBlank = cs := by
    cases cs with
    | nil => rfl
    | cons c cs => exact List.dropWhile_cons_of_neg (by simp [hcs c List.mem_cons_self])
  rw [trim, hnone _ h, hnone _ fun c hc => h c (List.mem_reverse.1 hc), List.reverse_reverse,
    String.ofList_toList]

end Text

/-! ## Guids -/

namespace Guid

theorem dropDashes?_insertDashes {sizes : List Nat} {cs : List Char} (hsizes : sizes ≠ [])
    (h : cs.length = sizes.sum) : dropDashes? sizes (insertDashes sizes cs) = some cs := by
  fun_induction insertDashes sizes cs with
  | case1 => exact absurd rfl hsizes
  | case2 cs size =>
    rw [dropDashes?, if_pos (by simpa using h)]
  | case3 size sizes cs hne ih =>
    have hsize : (cs.take size).length = size := by
      rw [List.length_take, h, List.sum_cons]
      omega
    have hrest : (cs.drop size).length = sizes.sum := by
      rw [List.length_drop, h, List.sum_cons]
      omega
    have hsome := ih hne hrest
    have hdrop : (cs.take size ++ '-' :: insertDashes sizes (cs.drop size)).drop size =
        '-' :: insertDashes sizes (cs.drop size) := List.drop_left' hsize
    rw [dropDashes?, hdrop]
    · simp only [hsome, List.take_left' hsize, Option.map_some, List.take_append_drop]
    · exact hne

theorem length_insertDashes {sizes : List Nat} {cs : List Char} (h : cs.length = sizes.sum) :
    (insertDashes sizes cs).length = sizes.sum + (sizes.length - 1) := by
  fun_induction insertDashes sizes cs with
  | case1 => exact h
  | case2 cs size => exact h
  | case3 size sizes cs hne ih =>
    have hrest : (cs.drop size).length = sizes.sum := by
      rw [List.length_drop, h, List.sum_cons]
      omega
    have hpos := List.length_pos_of_ne_nil hne
    rw [List.length_append, List.length_cons, ih hrest, List.length_take, h, List.sum_cons,
      List.length_cons]
    omega

theorem mem_insertDashes {sizes : List Nat} {cs : List Char} {c : Char}
    (hc : c ∈ insertDashes sizes cs) : c ∈ cs ∨ c = '-' := by
  fun_induction insertDashes sizes cs with
  | case1 => exact .inl hc
  | case2 => exact .inl hc
  | case3 size sizes cs hne ih =>
    rcases List.mem_append.1 hc with hc | hc
    · exact .inl (List.mem_of_mem_take hc)
    rcases List.mem_cons.1 hc with hc | hc
    · exact .inr hc
    · exact (ih hc).imp_left List.mem_of_mem_drop

/-- A guid is read as it is written. -/
theorem parse?_print (g : Guid) : parse? g.print = some g := by
  have hdigits : (Text.padded 16 32 g.bits.toNat).length = 32 :=
    Text.length_padded (by decide) (by decide) (by simpa using g.bits.isLt)
  have hlength : (insertDashes groups (Text.padded 16 32 g.bits.toNat)).length = 36 :=
    length_insertDashes hdigits
  have hblanks (c : Char) (hc : c ∈ g.print.toList) : Text.isBlank c = false := by
    rw [print, String.toList_ofList] at hc
    rcases mem_insertDashes hc with hc | rfl
    · exact Text.isBlank_of_mem_padded hc
    · decide
  have hgroups : dropDashes? groups (insertDashes groups (Text.padded 16 32 g.bits.toNat)) =
      some (Text.padded 16 32 g.bits.toNat) := dropDashes?_insertDashes (by decide) hdigits
  rw [parse?, Text.trim_of_forall hblanks, print, String.toList_ofList]
  rw [hlength, if_neg (by decide), if_pos rfl, ofDashed?, hgroups, Option.bind_some, ofDigits?,
    if_pos hdigits, Text.hexValue?_padded, Option.map_some, BitVec.ofNat_toNat, BitVec.setWidth_eq]

end Guid

end Parlance
