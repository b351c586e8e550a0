import Mathlib.Data.List.DropRight
import Parlance.Rows.Shape
import Parlance.Proofs.Step

/-!
# Literals in strings

What a string is recognized as, it can be read as. Recognition takes the string as it stands and
reading without the blanks around it; but what is recognized ends with a character that is no blank, and
blanks before it are either not there or skipped by the layout.
-/

namespace Parlance

open Text Calendar

/-! ## Blanks around a text -/

namespace Text

theorem isBlank_of_isDigit {c : Char} (h : c.isDigit = true) : isBlank c = false := by
  have hdigit : 48 ≤ c.toNat ∧ c.toNat ≤ 57 := by
    simp only [Char.isDigit, Bool.and_eq_true, decide_eq_true_eq] at h
    exact ⟨UInt32.le_iff_toNat_le.1 h.1, UInt32.le_iff_toNat_le.1 h.2⟩
  simp only [isBlank, blanks, Intervals.contains, List.any_cons, List.any_nil]
  grind

/-- The last character is there, and is no blank. -/
def Ends (cs : List Char) : Prop := ∃ front c, cs = front ++ [c] ∧ isBlank c = false

theorem Ends.of_suffix {cs rest : List Char} (h : Ends rest) (hs : rest <:+ cs) : Ends cs := by
  obtain ⟨before, rfl⟩ := hs
  obtain ⟨front, c, rfl, hc⟩ := h
  exact ⟨before ++ front, c, (List.append_assoc ..).symm, hc⟩

theorem ends_of_digits {cs : List Char} (hne : cs ≠ []) (h : ∀ c ∈ cs, c.isDigit = true) :
    Ends cs := by
  refine ⟨cs.dropLast, cs.getLast hne, (List.dropLast_append_getLast hne).symm, ?_⟩
  exact isBlank_of_isDigit (h _ (List.getLast_mem hne))

theorem Ends.dropWhile {cs : List Char} (h : Ends cs) : Ends (cs.dropWhile isBlank) := by
  obtain ⟨front, c, rfl, hc⟩ := h
  rw [List.dropWhile_append]
  split
  · exact ⟨[], c, by simp [hc], hc⟩
  · exact ⟨_, c, rfl, hc⟩

theorem toList_trim {s : String} (h : Ends s.toList) :
    (trim s).toList = s.toList.dropWhile isBlank := by
  obtain ⟨front, c, heq, hc⟩ := h.dropWhile
  rw [trim, heq, List.reverse_append, List.reverse_singleton, List.singleton_append,
    List.dropWhile_cons_of_neg (by simp [hc]), String.toList_ofList]
  simp

end Text

/-! ## Recognized moments -/

namespace Calendar

variable {cs rest : List Char} {n : Nat}

theorem takeNumber?_eq_some {width : Nat} (h : takeNumber? width cs = some (n, rest)) :
    ∃ digits, cs = digits ++ rest ∧ digits ≠ [] ∧ ∀ c ∈ digits, c.isDigit = true := by
  unfold takeNumber? at h
  dsimp only at h
  split at h
  · cases h
  · rename_i hne
    cases h
    have hprefix : (cs.take width).takeWhile Char.isDigit <+: cs :=
      (List.takeWhile_prefix _).trans (List.take_prefix _ _)
    refine ⟨(cs.take width).takeWhile Char.isDigit, (List.prefix_iff_eq_append.1 hprefix).symm, ?_,
      fun c hc => List.mem_takeWhile_imp hc⟩
    rintro hnil
    rw [hnil] at hne
    exact hne rfl

theorem takeExactly?_eq_some {width : Nat} (h : takeExactly? width cs = some (n, rest)) :
    ∃ digits, cs = digits ++ rest ∧ digits.length = width ∧ ∀ c ∈ digits, c.isDigit = true := by
  unfold takeExactly? at h
  dsimp only at h
  split at h
  · rename_i hdigits
    cases h
    simp only [Bool.and_eq_true, decide_eq_true_eq, List.all_eq_true] at hdigits
    exact ⟨cs.take width, (List.take_append_drop width cs).symm, hdigits.1, hdigits.2⟩
  · cases h

/-- A fraction that ends a text ends it with a digit, or is not there. -/
theorem ends_of_takeFraction? (h : takeFraction? cs = some (n, [])) : cs = [] ∨ Ends cs := by
  unfold takeFraction? at h
  split at h
  · rename_i digits
    obtain ⟨⟨m, others⟩, hnumber, heq⟩ := Option.map_eq_some_iff.1 h
    obtain ⟨first, rfl, hne, hfirst⟩ := takeNumber?_eq_some hnumber
    simp only [Prod.mk.injEq] at heq
    have hothers := List.dropWhile_eq_nil_iff.1 heq.2
    refine .inr (.of_suffix (ends_of_digits (by simp [hne]) ?_) (List.suffix_cons '.' _))
    intro c hc
    rcases List.mem_append.1 hc with hc | hc
    · exact hfirst c hc
    · exact hothers c hc
  · cases h
    exact .inl rfl

theorem suffix_of_takeFraction? (h : takeFraction? cs = some (n, rest)) : rest <:+ cs := by
  unfold takeFraction? at h
  split at h
  · rename_i digits
    obtain ⟨⟨m, others⟩, hnumber, heq⟩ := Option.map_eq_some_iff.1 h
    obtain ⟨first, rfl, -⟩ := takeNumber?_eq_some hnumber
    cases heq
    exact ((List.dropWhile_suffix _).trans (List.suffix_append ..)).trans (List.suffix_cons ..)
  · cases h
    exact List.suffix_rfl

/-- Hours and minutes that end a text end it with a digit. -/
theorem ends_of_clock {separator : List Char → Option (List Char)}
    {total : Nat × List Char → Nat × List Char → Int} {offset : Int}
    (hsuffix : ∀ {cs rest : List Char}, separator cs = some rest → rest <:+ cs)
    (h : ((takeExactly? 2 cs).bind fun hours => (separator hours.2).bind fun rest =>
      (takeExactly? 2 rest).bind fun minutes =>
        if minutes.1 ≤ 59 then some (total hours minutes, minutes.2) else none) = some (offset, [])) :
    Ends cs := by
  obtain ⟨⟨hours, cs₁⟩, hhours, h⟩ := Option.bind_eq_some_iff.1 h
  obtain ⟨cs₂, hseparator, h⟩ := Option.bind_eq_some_iff.1 h
  obtain ⟨⟨minutes, cs₃⟩, hminutes, h⟩ := Option.bind_eq_some_iff.1 h
  split at h
  · cases h
    obtain ⟨_, rfl, -⟩ := takeExactly?_eq_some hhours
    obtain ⟨digits, rfl, hlength, hdigits⟩ := takeExactly?_eq_some hminutes
    rw [List.append_nil] at hseparator
    have hends : Ends digits := ends_of_digits (by rintro rfl; cases hlength) hdigits
    exact hends.of_suffix ((hsuffix hseparator).trans (List.suffix_append ..))
  · cases h

theorem ends_of_takeOffset? {separator : List Char → Option (List Char)} {offset : Int}
    (hsuffix : ∀ {cs rest : List Char}, separator cs = some rest → rest <:+ cs)
    (h : takeOffset? separator cs = some (offset, [])) : Ends cs := by
  unfold takeOffset? at h
  split at h
  · exact (ends_of_clock hsuffix h).of_suffix (List.suffix_cons ..)
  · exact (ends_of_clock hsuffix h).of_suffix (List.suffix_cons ..)
  · exact (ends_of_clock hsuffix h).of_suffix (List.suffix_cons ..)
  · cases h

theorem ends_of_takeZone? {offset : Int} (h : takeZone? cs = some (offset, [])) : Ends cs := by
  unfold takeZone? at h
  split at h
  · cases h
    exact ⟨[], 'Z', rfl, by decide⟩
  · cases h
    exact ⟨[], 'z', rfl, by decide⟩
  · refine ends_of_takeOffset? (fun hcolon => ?_) h
    split at hcolon <;> cases hcolon
    exact List.suffix_cons ..

theorem suffix_of_takeExactly? {width : Nat} (h : takeExactly? width cs = some (n, rest)) :
    rest <:+ cs := by
  obtain ⟨digits, rfl, -⟩ := takeExactly?_eq_some h
  exact List.suffix_append ..

theorem suffix_of_takeNumber? {width : Nat} (h : takeNumber? width cs = some (n, rest)) :
    rest <:+ cs := by
  obtain ⟨digits, rfl, -⟩ := takeNumber?_eq_some h
  exact List.suffix_append ..

theorem suffix_of_takeYear? {year : Int} (h : takeYear? cs = some (year, rest)) : rest <:+ cs := by
  unfold takeYear? at h
  split at h <;> obtain ⟨⟨m, others⟩, hnumber, heq⟩ := Option.map_eq_some_iff.1 h <;> cases heq
  · exact (suffix_of_takeNumber? hnumber).trans (List.suffix_cons ..)
  · exact (suffix_of_takeNumber? hnumber).trans (List.suffix_cons ..)
  · exact suffix_of_takeNumber? hnumber

/-- A field of a layout takes what is in front of a text. -/
theorem suffix_of_take? {r s : Reading} {f : Field} (hf : f ≠ .offset)
    (h : f.take? r cs = some (s, rest)) : rest <:+ cs := by
  have hnumber {put : Nat × List Char → Reading × List Char} (hput : ∀ x, (put x).2 = x.2)
      (h : (takeNumber? 2 (cs.dropWhile isBlank)).map put = some (s, rest)) : rest <:+ cs := by
    obtain ⟨⟨m, others⟩, hnumber, heq⟩ := Option.map_eq_some_iff.1 h
    obtain rfl : others = rest := (hput (m, others)).symm.trans (congrArg Prod.snd heq)
    exact (suffix_of_takeNumber? hnumber).trans (List.dropWhile_suffix _)
  cases f with
  | year =>
    obtain ⟨⟨m, others⟩, hyear, heq⟩ := Option.map_eq_some_iff.1 h
    cases heq
    exact (suffix_of_takeYear? hyear).trans (List.dropWhile_suffix _)
  | month => exact hnumber (fun _ => rfl) h
  | day => exact hnumber (fun _ => rfl) h
  | hour => exact hnumber (fun _ => rfl) h
  | minute => exact hnumber (fun _ => rfl) h
  | second => exact hnumber (fun _ => rfl) h
  | fraction =>
    obtain ⟨⟨m, others⟩, hfraction, heq⟩ := Option.map_eq_some_iff.1 h
    cases heq
    exact suffix_of_takeFraction? hfraction
  | offset => exact absurd rfl hf
  | blanks =>
    cases h
    exact List.dropWhile_suffix _
  | fixed c =>
    cases cs with
    | nil => cases h
    | cons d cs =>
      simp only [Field.take?] at h
      split at h
      · cases h
        exact List.suffix_cons ..
      · cases h

theorem suffix_of_fields {layout : List Field} {r s : Reading} (hl : .offset ∉ layout)
    (h : layout.foldlM (fun (r, cs) f => f.take? r cs) (r, cs) = some (s, rest)) : rest <:+ cs := by
  induction layout generalizing r cs with
  | nil =>
    cases h
    exact List.suffix_rfl
  | cons f layout ih =>
    rw [List.foldlM_cons, Option.bind_eq_bind] at h
    obtain ⟨⟨r', cs'⟩, hf, h⟩ := Option.bind_eq_some_iff.1 h
    refine (ih (by simp_all) h).trans (suffix_of_take? ?_ hf)
    rintro rfl
    simp at hl

/-- A timestamp tells the parts of its moment. It starts with a digit and does not end with a blank. -/
theorem exists_reading_of_parseTimestamp? {text : String} {m : OffsetMoment}
    (h : parseTimestamp? text = some m) : (∃ r : Reading, r.offsetMoment? = some m) ∧
      text.toList.dropWhile isBlank = text.toList ∧ Ends text.toList := by
  obtain ⟨⟨year, cs₁⟩, hyear, h⟩ := Option.bind_eq_some_iff.1 h
  obtain ⟨⟨_, cs₂⟩, hdash, h⟩ := Option.bind_eq_some_iff.1 h
  obtain ⟨⟨month, cs₃⟩, hmonth, h⟩ := Option.bind_eq_some_iff.1 h
  obtain ⟨⟨_, cs₄⟩, hdash', h⟩ := Option.bind_eq_some_iff.1 h
  obtain ⟨⟨day, cs₅⟩, hday, h⟩ := Option.bind_eq_some_iff.1 h
  dsimp only at h
  split at h
  case h_2 => cases h
  rename_i mark rest
  split at h
  case isFalse => cases h
  obtain ⟨cs₆, hrest, h⟩ := Option.bind_eq_some_iff.1 h
  cases hrest
  obtain ⟨⟨hour, cs₇⟩, hhour, h⟩ := Option.bind_eq_some_iff.1 h
  obtain ⟨⟨_, cs₈⟩, hcolon, h⟩ := Option.bind_eq_some_iff.1 h
  obtain ⟨⟨minute, cs₉⟩, hminute, h⟩ := Option.bind_eq_some_iff.1 h
  obtain ⟨⟨_, cs₁₀⟩, hcolon', h⟩ := Option.bind_eq_some_iff.1 h
  obtain ⟨⟨second, cs₁₁⟩, hsecond, h⟩ := Option.bind_eq_some_iff.1 h
  obtain ⟨⟨nanosecond, cs₁₂⟩, hfraction, h⟩ := Option.bind_eq_some_iff.1 h
  obtain ⟨⟨offset, cs₁₃⟩, hzone, h⟩ := Option.bind_eq_some_iff.1 h
  obtain ⟨hempty, hreading⟩ := Option.ite_none_right_eq_some.1 h
  obtain rfl := List.isEmpty_iff.1 hempty
  refine ⟨⟨_, hreading⟩, ?_, ?_⟩
  · obtain ⟨digits, heq, hlength, hdigits⟩ := takeExactly?_eq_some hyear
    cases digits with
    | nil => cases hlength
    | cons c digits =>
      rw [heq, List.cons_append]
      exact List.dropWhile_cons_of_neg (by simp [isBlank_of_isDigit (hdigits c (by simp))])
  · have hfixed {c : Char} : Field.fixed c ≠ .offset := by simp
    have htime : Ends rest :=
      (ends_of_takeZone? hzone).of_suffix <| (suffix_of_takeFraction? hfraction).trans <|
        (suffix_of_takeExactly? hsecond).trans <| (suffix_of_take? hfixed hcolon').trans <|
        (suffix_of_takeExactly? hminute).trans <| (suffix_of_take? hfixed hcolon).trans <|
        suffix_of_takeExactly? hhour
    exact htime.of_suffix <| (List.suffix_cons mark rest).trans <|
      (suffix_of_takeExactly? hday).trans <| (suffix_of_take? hfixed hdash').trans <|
      (suffix_of_takeExactly? hmonth).trans <| (suffix_of_take? hfixed hdash).trans <|
      suffix_of_takeExactly? hyear

theorem ofText_of_parseTimestamp? {text : String} {m : OffsetMoment}
    (h : parseTimestamp? text = some m) : OffsetMoment.ofText text = .ok m := by
  obtain ⟨-, hstart, hends⟩ := exists_reading_of_parseTimestamp? h
  have htrim : trim text = text := String.toList_injective ((toList_trim hends).trans hstart)
  have hparse : parseOffsetMoment? (trim text) = some m := by
    rw [htrim, parseOffsetMoment?, h]
    rfl
  unfold OffsetMoment.ofText
  dsimp only
  rw [hparse]

/-- A moment of the local layout ends with the digits of its second or of a fraction. -/
theorem ends_of_localLayout {text : String} {r : Reading}
    (h : readLayout? localLayout text = some r) : Ends text.toList := by
  obtain ⟨⟨r', rest⟩, hrun, h⟩ := Option.bind_eq_some_iff.1 h
  dsimp only at h
  split at h
  · rename_i hempty
    obtain rfl := List.isEmpty_iff.1 hempty
    rw [show localLayout = localLayout.dropLast.dropLast ++ [.second, .fraction] from rfl,
      List.foldlM_append] at hrun
    obtain ⟨⟨r₁, cs₁⟩, hfront, hrun⟩ := Option.bind_eq_some_iff.1 hrun
    refine Ends.of_suffix ?_ (suffix_of_fields (by decide) hfront)
    obtain ⟨⟨r₂, cs₂⟩, hsecond, hrun⟩ := Option.bind_eq_some_iff.1 hrun
    obtain ⟨⟨r₃, cs₃⟩, hfraction, hrun⟩ := Option.bind_eq_some_iff.1 hrun
    cases hrun
    obtain ⟨⟨n, others⟩, hfraction, heq⟩ := Option.map_eq_some_iff.1 hfraction
    cases heq
    rcases ends_of_takeFraction? hfraction with rfl | hends
    · obtain ⟨⟨m, others⟩, hnumber, heq⟩ := Option.map_eq_some_iff.1 hsecond
      cases heq
      obtain ⟨digits, heq, hne, hdigits⟩ := takeNumber?_eq_some hnumber
      rw [List.append_nil] at heq
      refine Ends.of_suffix ?_ (List.dropWhile_suffix isBlank)
      rw [heq]
      exact ends_of_digits hne hdigits
    · exact hends.of_suffix (suffix_of_take? (by decide) hsecond)
  · cases h

theorem readLayout?_dropWhile (text : String) :
    readLayout? localLayout (String.ofList (text.toList.dropWhile isBlank)) =
      readLayout? localLayout text := by
  have hyear (r : Reading) (cs : List Char) :
      Field.take? r (cs.dropWhile isBlank) .year = Field.take? r cs .year := by
    simp only [Field.take?, List.dropWhile_idempotent]
  simp only [readLayout?, String.toList_ofList]
  rw [show localLayout = .year :: localLayout.tail from rfl, List.foldlM_cons, List.foldlM_cons, hyear]

theorem ofText_of_parseMomentAs? {text : String} {m : Moment}
    (h : parseMomentAs? localLayout text = some m) : Moment.ofText text = .ok m := by
  obtain ⟨r, hr, -⟩ := Option.bind_eq_some_iff.1 h
  have htrim : trim text = String.ofList (text.toList.dropWhile isBlank) :=
    String.toList_injective ((toList_trim (ends_of_localLayout hr)).trans String.toList_ofList.symm)
  have hmoment : parseMomentAs? localLayout (trim text) = some m := by
    rw [htrim, parseMomentAs?, readLayout?_dropWhile]
    exact h
  have hparse : parseMoment? (trim text) = some m := by
    rw [parseMoment?, momentLayouts, List.findSome?_cons, hmoment]
  unfold Moment.ofText
  dsimp only
  rw [hparse]

end Calendar

end Parlance
