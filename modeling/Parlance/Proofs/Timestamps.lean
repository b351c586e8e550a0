import Parlance.Proofs.CivilDays
import Parlance.Proofs.Digits

/-!
# Moments read back

A wall time whose year has four digits is written as fields of fixed width, and both the layout of local
times and the strict form of timestamps read these fields again (`readLayout?_print`,
`parseTimestamp?_print`). The fields make the same time, a leap second at the end of a minute among them
(`WallTime.make?_fields`). So moments are read as they are written (`Moment.ofText_print`), and with an
offset of whole minutes as well (`OffsetMoment.ofText_printZulu`). The clock of an offset moment that is
read from a text shows a moment (`OffsetMoment.local_of_ofText`).
-/

namespace Parlance.Calendar

open Parlance.Text

variable {width n : Nat} {ds rest cs : List Char} {c : Char} {r : Reading}

/-! ## Digits at the front -/

theorem takeNumber?_digits (hds : ∀ c ∈ ds, c.isDigit = true) (hne : ds ≠ []) (hwidth : ds.length ≤ width)
    (hrest : ds.length = width ∨ ∀ c ∈ rest.head?, c.isDigit = false) :
    takeNumber? width (ds ++ rest) = some (decimalValue ds, rest) := by
  have hafter : (rest.take (width - ds.length)).takeWhile Char.isDigit = [] := by
    rcases hrest with hlength | hstop
    · rw [hlength, Nat.sub_self, List.take_zero, List.takeWhile_nil]
    · cases rest with
      | nil => rw [List.take_nil, List.takeWhile_nil]
      | cons c rest =>
        cases width - ds.length with
        | zero => rfl
        | succ k => rw [List.take_succ_cons, List.takeWhile_cons_of_neg (by simp [hstop c rfl])]
  have hdigits : ((ds ++ rest).take width).takeWhile Char.isDigit = ds := by
    rw [List.take_append, List.take_of_length_le hwidth, List.takeWhile_append_of_pos hds, hafter,
      List.append_nil]
  simp only [takeNumber?, hdigits, List.isEmpty_iff, hne, if_false, List.drop_left]

theorem padded_ne_nil (hwidth : 0 < width) (hn : n < 10 ^ width) : padded 10 width n ≠ [] := by
  apply List.ne_nil_of_length_pos
  rwa [length_padded (by decide) hwidth hn]

theorem takeNumber?_padded (hwidth : 0 < width) (hn : n < 10 ^ width) (rest : List Char) :
    takeNumber? width (padded 10 width n ++ rest) = some (n, rest) := by
  have hlength := length_padded (Nat.one_lt_ofNat : 1 < 10) hwidth hn
  rw [takeNumber?_digits (fun c hc => isDigit_of_mem_padded hc) (padded_ne_nil hwidth hn) hlength.le
    (.inl hlength), decimalValue_padded]

theorem takeExactly?_padded (hwidth : 0 < width) (hn : n < 10 ^ width) (rest : List Char) :
    takeExactly? width (padded 10 width n ++ rest) = some (n, rest) := by
  have hlength := length_padded (Nat.one_lt_ofNat : 1 < 10) hwidth hn
  have hdigits : (padded 10 width n).all Char.isDigit = true :=
    List.all_eq_true.2 fun c hc => isDigit_of_mem_padded hc
  simp only [takeExactly?, List.take_left' hlength, List.drop_left' hlength, hlength, hdigits,
    decide_true, Bool.and_true, if_true, decimalValue_padded]

theorem exists_padded (hwidth : 0 < width) (hn : n < 10 ^ width) (rest : List Char) :
    ∃ c cs, padded 10 width n ++ rest = c :: cs ∧ c.isDigit = true := by
  cases hds : padded 10 width n with
  | nil => exact absurd hds (padded_ne_nil hwidth hn)
  | cons c ds => exact ⟨c, ds ++ rest, rfl, isDigit_of_mem_padded (hds ▸ List.mem_cons_self)⟩

theorem dropWhile_padded (hwidth : 0 < width) (hn : n < 10 ^ width) (rest : List Char) :
    (padded 10 width n ++ rest).dropWhile isBlank = padded 10 width n ++ rest := by
  obtain ⟨c, cs, heq, hc⟩ := exists_padded hwidth hn rest
  rw [heq, List.dropWhile_cons_of_neg (by simp [isBlank_of_isDigit hc])]

/-! ## Fields -/

theorem takeYear?_padded (hn : n < 10 ^ 4) (rest : List Char) :
    takeYear? (padded 10 4 n ++ rest) = some ((n : Int), rest) := by
  obtain ⟨c, cs, heq, hc⟩ := exists_padded (Nat.succ_pos 3) hn rest
  have hnumber := takeNumber?_padded (Nat.succ_pos 3) hn rest
  rw [heq] at hnumber ⊢
  unfold takeYear?
  split
  · rename_i h
    cases h
    cases hc
  · rename_i h
    cases h
    cases hc
  · rw [hnumber]
    rfl

theorem take?_fixed (c : Char) (r : Reading) (cs : List Char) :
    Field.take? r (c :: cs) (.fixed c) = some (r, cs) := by
  rw [Field.take?, if_pos rfl]

/-- What comes after a number or a fraction: neither a digit nor a point. -/
def Stops (rest : List Char) : Prop := ∀ c ∈ rest.head?, c.isDigit = false ∧ c ≠ '.'

theorem takeNanos?_padded {size : Nat} (hsize : 0 < size ∧ size ≤ 9) (hn : n < 10 ^ size)
    (hrest : Stops rest) :
    takeNanos? (padded 10 size n ++ rest) = some (n * Nat.pow 10 (9 - size), rest) := by
  have hlength := length_padded (Nat.one_lt_ofNat : 1 < 10) hsize.1 hn
  have hdrop : rest.dropWhile Char.isDigit = rest := by
    cases rest with
    | nil => rfl
    | cons c rest => exact List.dropWhile_cons_of_neg (by simp [(hrest c rfl).1])
  have hnumber : takeNumber? 9 (padded 10 size n ++ rest) = some (n, rest) := by
    rw [takeNumber?_digits (fun c hc => isDigit_of_mem_padded hc) (padded_ne_nil hsize.1 hn)
      (hlength.le.trans hsize.2) (.inr fun c hc => (hrest c hc).1), decimalValue_padded]
  simp only [takeNanos?, hnumber, Option.map_some, List.length_append, hlength, Nat.add_sub_cancel, hdrop]

theorem takeFraction?_point {size nanos : Nat} (hsize : 0 < size ∧ size ≤ 9) (hn : n < 10 ^ size)
    (hscale : n * Nat.pow 10 (9 - size) = nanos) (hrest : Stops rest) :
    takeFraction? ('.' :: padded 10 size n ++ rest) = some (nanos, rest) := by
  rw [List.cons_append, takeFraction?, takeNanos?_padded hsize hn hrest, hscale]

/-- A fraction is written with as few digits as are exact. -/
theorem takeFraction?_fractionChars (hn : n < secondNanos) (hrest : Stops rest) :
    takeFraction? (fractionChars n ++ rest) = some (n, rest) := by
  unfold secondNanos at hn
  unfold fractionChars
  split
  · rename_i hzero
    subst hzero
    rw [List.nil_append]
    unfold takeFraction?
    split
    · exact absurd rfl (hrest '.' rfl).2
    · rfl
  split
  · rename_i hmillis
    have hscale : n / 1000000 * Nat.pow 10 (9 - 3) = n :=
      Nat.div_mul_cancel (Nat.dvd_of_mod_eq_zero hmillis)
    exact takeFraction?_point (by decide) (by omega) hscale hrest
  split
  · rename_i hmicros
    have hscale : n / 1000 * Nat.pow 10 (9 - 6) = n :=
      Nat.div_mul_cancel (Nat.dvd_of_mod_eq_zero hmicros)
    exact takeFraction?_point (by decide) (by omega) hscale hrest
  · exact takeFraction?_point (by decide) hn (Nat.mul_one n) hrest

/-! ## Offsets -/

/-- The separator of a timestamp's offset. -/
def takeColon? : List Char → Option (List Char)
  | ':' :: rest => some rest
  | _ => none

theorem takeOffset?_sign (negative : Bool) (cs : List Char) :
    takeOffset? takeColon? ((if negative then '-' else '+') :: cs) =
      (takeExactly? 2 cs).bind fun (hours, rest) => (takeColon? rest).bind fun rest =>
        (takeExactly? 2 rest).bind fun (minutes, rest) =>
          if minutes ≤ 59 then
            some (if negative then -((hours : Int) * 3600 + minutes * 60) else (hours : Int) * 3600 + minutes * 60,
              rest)
          else none := by
  cases negative <;> rfl

/-- An offset of whole minutes is read as it is written. -/
theorem takeZone?_offsetChars {offset : Int} (h : offset.natAbs < daySeconds) (hminutes : offset % 60 = 0) :
    takeZone? (offsetChars offset) = some (offset, []) := by
  unfold daySeconds at h
  have hrounded : (offset.natAbs + 30) / 60 = offset.natAbs / 60 := by omega
  have hzone : takeZone? (offsetChars offset) = takeOffset? takeColon? (offsetChars offset) := by
    unfold offsetChars
    split <;> rfl
  have hsign : offsetChars offset = (if decide (offset < 0) then '-' else '+') ::
      (padded 10 2 (offset.natAbs / 60 / 60) ++ ':' :: padded 10 2 (offset.natAbs / 60 % 60)) := by
    simp only [offsetChars, hrounded, decide_eq_true_eq, List.cons_append]
  have hdigits := takeExactly?_padded (n := offset.natAbs / 60 % 60) Nat.two_pos (by omega) []
  rw [List.append_nil] at hdigits
  rw [hzone, hsign, takeOffset?_sign, takeExactly?_padded Nat.two_pos (by omega), Option.bind_some]
  simp only [takeColon?, Option.bind_some, hdigits, decide_eq_true_eq]
  rw [if_pos (by omega)]
  congr 2
  split <;> omega

/-! ## Clocks -/

namespace WallTime

variable (w : WallTime)

theorem second_lt : w.second < 86400 := w.clock.1

theorem nanosecond_lt : w.nanosecond < 2000000000 := w.clock.2

theorem hour_lt : w.hour < 24 := Nat.div_lt_of_lt_mul w.second_lt

theorem minute_lt : w.minute < 60 := Nat.mod_lt _ (by decide)

theorem secondOfMinute_lt : w.secondOfMinute < 60 := Nat.mod_lt _ (by decide)

theorem second_eq : w.hour * 3600 + w.minute * 60 + w.secondOfMinute = w.second := by
  unfold hour minute secondOfMinute
  omega

theorem addSeconds_neg (seconds : Int) : (w.addSeconds seconds).addSeconds (-seconds) = w := by
  obtain ⟨day, second, nanosecond, hclock⟩ := w
  have hsecond := second_lt ⟨day, second, nanosecond, hclock⟩
  dsimp only at hsecond
  simp only [addSeconds, daySeconds, WallTime.mk.injEq, and_true]
  omega

theorem addSeconds_zero : w.addSeconds 0 = w := by
  obtain ⟨day, second, nanosecond, hclock⟩ := w
  have hsecond := second_lt ⟨day, second, nanosecond, hclock⟩
  dsimp only at hsecond
  simp only [addSeconds, daySeconds, WallTime.mk.injEq, and_true]
  omega

theorem moment?_eq (h : InCalendar w.day) : w.moment? = some ⟨w, h⟩ := dif_pos h

theorem moment?_eq_some {w : WallTime} {m : Moment} : w.moment? = some m ↔ m.toWallTime = w := by
  constructor
  · intro h
    unfold moment? at h
    split at h
    · cases h
      rfl
    · cases h
  · rintro rfl
    exact moment?_eq _ m.inCalendar

end WallTime

/-! ## Readings -/

namespace WallTime

/-- The fields that a wall time is written in, with an offset. -/
def reading (w : WallTime) (offset : Int) : Reading :=
  ⟨w.date.year, w.date.month, w.date.day, w.hour, w.minute,
    w.secondOfMinute + w.nanosecond / secondNanos, w.nanosecond % secondNanos, offset⟩

/-- The fields that a wall time is written in are those of no other one: its year is written in four digits
without a sign, and a leap second comes at the end of a minute. -/
def Legible (w : WallTime) : Prop :=
  (0 ≤ w.date.year ∧ w.date.year ≤ 9999) ∧ (secondNanos ≤ w.nanosecond → w.secondOfMinute = 59)

instance (w : WallTime) : Decidable w.Legible := inferInstanceAs (Decidable (_ ∧ _))

theorem Legible.inCalendar {w : WallTime} (h : w.Legible) : InCalendar w.day :=
  ⟨Int.le_trans (by decide) h.1.1, Int.le_trans h.1.2 (by decide)⟩

end WallTime

theorem daysInMonth_le (year : Int) (month : Nat) : daysInMonth year month ≤ 31 := by
  unfold daysInMonth
  split <;> (try split) <;> decide

/-- The fields fit the digits that they are written in. -/
structure WallTime.Fits (w : WallTime) : Prop where
  year : w.date.year.toNat < 10 ^ 4
  month : w.date.month < 10 ^ 2
  day : w.date.day < 10 ^ 2
  hour : w.hour < 10 ^ 2
  minute : w.minute < 10 ^ 2
  second : w.secondOfMinute + w.nanosecond / secondNanos < 10 ^ 2
  nanosecond : w.nanosecond % secondNanos < secondNanos

theorem WallTime.Legible.fits {w : WallTime} (h : w.Legible) : w.Fits := by
  obtain ⟨⟨-, hmonth⟩, -, hday⟩ := Date.valid_ofDayNumber w.day
  have hdays := hday.trans (daysInMonth_le (Date.ofDayNumber w.day).year (Date.ofDayNumber w.day).month)
  have hyear := h.1.2
  have hnanos := w.nanosecond_lt
  have hsecond := w.secondOfMinute_lt
  constructor
  · omega
  · exact Nat.lt_of_le_of_lt hmonth (by decide)
  · exact Nat.lt_of_le_of_lt hdays (by decide)
  · exact w.hour_lt.trans (by decide)
  · exact w.minute_lt.trans (by decide)
  · unfold secondNanos
    omega
  · exact Nat.mod_lt _ (by decide)

theorem WallTime.chars_append {w : WallTime} (h : w.Legible) (rest : List Char) :
    w.chars ++ rest =
      padded 10 4 w.date.year.toNat ++ '-' :: (padded 10 2 w.date.month ++ '-' ::
        (padded 10 2 w.date.day ++ 'T' :: (padded 10 2 w.hour ++ ':' :: (padded 10 2 w.minute ++ ':' ::
          (padded 10 2 (w.secondOfMinute + w.nanosecond / secondNanos) ++
            (fractionChars (w.nanosecond % secondNanos) ++ rest)))))) := by
  have hyear : (decide (0 ≤ w.date.year) && decide (w.date.year ≤ 9999)) = true := by
    rw [decide_eq_true h.1.1, decide_eq_true h.1.2]
    rfl
  simp only [WallTime.chars, yearChars, hyear, if_true, List.append_assoc, List.cons_append]

theorem readLayout?_print {m : Moment} (h : m.Legible) :
    readLayout? localLayout m.print = some (m.reading 0) := by
  obtain ⟨hyear, hmonth, hday, hhour, hminute, hsecond, hnanos⟩ := h.fits
  have hchars := WallTime.chars_append h []
  have hstops : Stops [] := nofun
  have hnumber {n : Nat} (hn : n < 10 ^ 2) (rest : List Char) :
      takeNumber? 2 ((padded 10 2 n ++ rest).dropWhile isBlank) = some (n, rest) := by
    rw [dropWhile_padded Nat.two_pos hn, takeNumber?_padded Nat.two_pos hn]
  rw [List.append_nil] at hchars
  simp only [readLayout?, Moment.print, String.toList_ofList, hchars, localLayout, dateLayout, fullClockLayout,
    clockLayout, List.cons_append, List.nil_append, List.foldlM_cons, List.foldlM_nil, Field.take?,
    dropWhile_padded (Nat.succ_pos 3) hyear, takeYear?_padded hyear, hnumber hmonth, hnumber hday,
    hnumber hhour, hnumber hminute, hnumber hsecond, takeFraction?_fractionChars hnanos hstops,
    Option.map_some, Option.bind_eq_bind, Option.bind_some, Option.pure_def, if_true, List.isEmpty_nil,
    Int.toNat_of_nonneg h.1.1]
  rfl

theorem parseTimestamp?_print {w : WallTime} (h : w.Legible) {zone : List Char} {offset : Int}
    (hzone : takeZone? zone = some (offset, [])) (hstops : Stops zone) :
    parseTimestamp? (String.ofList (w.chars ++ zone)) = (w.reading offset).offsetMoment? := by
  obtain ⟨hyear, hmonth, hday, hhour, hminute, hsecond, hnanos⟩ := h.fits
  rw [parseTimestamp?, String.toList_ofList, WallTime.chars_append h]
  dsimp only
  rw [takeExactly?_padded (Nat.succ_pos 3) hyear]
  dsimp only [Option.bind_eq_bind, Option.bind_some]
  simp only [take?_fixed, Option.bind_some, takeExactly?_padded Nat.two_pos hmonth,
    takeExactly?_padded Nat.two_pos hday, decide_true, Bool.or_true, Bool.true_or, if_true]
  simp only [take?_fixed, Option.bind_some, takeExactly?_padded Nat.two_pos hhour,
    takeExactly?_padded Nat.two_pos hminute, takeExactly?_padded Nat.two_pos hsecond,
    takeFraction?_fractionChars hnanos hstops, hzone, List.isEmpty_nil, if_true, Int.toNat_of_nonneg h.1.1]
  rfl

/-! ## Moments -/

namespace WallTime

variable {w : WallTime}

/-- The second that is written, and the nanoseconds beyond it, are those of the time: a leap second is
written as second 60. -/
theorem Legible.clock_fields (h : w.Legible) :
    (if w.secondOfMinute + w.nanosecond / secondNanos = 60 then
      (59, w.nanosecond % secondNanos + secondNanos)
    else (w.secondOfMinute + w.nanosecond / secondNanos, w.nanosecond % secondNanos)) =
      (w.secondOfMinute, w.nanosecond) := by
  have hleap := h.2
  have hnanos := w.nanosecond_lt
  have hsecond := w.secondOfMinute_lt
  unfold secondNanos at hleap ⊢
  split <;> (congr 1 <;> omega)

theorem Legible.make?_fields (h : w.Legible) :
    Moment.make? w.date w.hour w.minute (w.secondOfMinute + w.nanosecond / secondNanos)
      (w.nanosecond % secondNanos) = w.moment? := by
  have hday : w.date.dayNumber = w.day := Date.dayNumber_ofDayNumber w.day
  have hhour := Nat.le_of_lt_succ w.hour_lt
  have hminute := Nat.le_of_lt_succ w.minute_lt
  have hsecond := Nat.le_of_lt_succ w.secondOfMinute_lt
  have hleap : (decide (w.nanosecond < secondNanos) || decide (w.secondOfMinute = 59)) = true := by
    rw [← Bool.decide_or]
    exact decide_eq_true ((Nat.lt_or_ge _ _).imp_right h.2)
  simp only [Moment.make?, h.clock_fields, w.second_eq, hday, w.clock, hhour, hminute, hsecond, hleap,
    dite_true, decide_true, Bool.and_true, if_true]

theorem Legible.moment?_reading (h : w.Legible) (offset : Int) :
    (w.reading offset).moment? = some ⟨w, h.inCalendar⟩ := by
  have hdate := Date.make?_ofDayNumber h.inCalendar.1 h.inCalendar.2
  change (Date.make? w.date.year w.date.month w.date.day).bind _ = _
  rw [WallTime.date, hdate, Option.bind_some, ← moment?_eq]
  exact h.make?_fields

end WallTime

/-- A moment is read as it is written. -/
theorem Moment.ofText_print {m : Moment} (h : m.Legible) : Moment.ofText m.print = .ok m := by
  apply ofText_of_parseMomentAs?
  rw [parseMomentAs?, readLayout?_print h, Option.bind_some, h.moment?_reading]

/-! ## Moments with an offset -/

namespace OffsetMoment

variable {m : OffsetMoment}

/-- The moment when a clock shows a reading is the one at which it shows it. -/
theorem ofLocal?_eq_some {reading : Moment} {offset : Int} :
    ofLocal? reading offset = some m ↔ m.wallTime = reading.toWallTime ∧ m.offset = offset := by
  constructor
  · intro h
    unfold ofLocal? at h
    split at h
    · obtain ⟨universal, huniversal, rfl⟩ := Option.map_eq_some_iff.1 h
      refine ⟨?_, rfl⟩
      have hback := reading.addSeconds_neg (-offset)
      rwa [← WallTime.moment?_eq_some.1 huniversal, Int.neg_neg] at hback
    · cases h
  · rintro ⟨htime, rfl⟩
    have hback : reading.addSeconds (-m.offset) = m.universal.toWallTime := by
      rw [← htime]
      exact m.universal.addSeconds_neg m.offset
    rw [ofLocal?, dif_pos m.offset_lt, hback, WallTime.moment?_eq _ m.universal.inCalendar]
    rfl

/-- The clock shows a moment. -/
def Local (m : OffsetMoment) : Prop := InCalendar m.wallTime.day

instance (m : OffsetMoment) : Decidable m.Local := inferInstanceAs (Decidable (InCalendar m.wallTime.day))

theorem local_ofUniversal (m : Moment) : (ofUniversal m).Local := by
  have htime : (ofUniversal m).wallTime = m.toWallTime := m.addSeconds_zero
  unfold Local
  rw [htime]
  exact m.inCalendar

theorem local_of_reading {r : Reading} (h : r.offsetMoment? = some m) : m.Local := by
  obtain ⟨reading, -, h⟩ := Option.bind_eq_some_iff.1 h
  unfold Local
  rw [(ofLocal?_eq_some.1 h).1]
  exact reading.inCalendar

/-- The clock of an offset moment that is read from a text shows a moment. -/
theorem local_of_ofText {text : String} (h : OffsetMoment.ofText text = .ok m) : m.Local := by
  dsimp only [OffsetMoment.ofText] at h
  split at h
  · rename_i hparse
    cases h
    rw [parseOffsetMoment?, Option.orElse_eq_or, Option.or_eq_some_iff] at hparse
    rcases hparse with hparse | ⟨-, hparse⟩
    · obtain ⟨⟨r, hr⟩, -⟩ := exists_reading_of_parseTimestamp? hparse
      exact local_of_reading hr
    · obtain ⟨r, -, hr⟩ := Option.bind_eq_some_iff.1 hparse
      exact local_of_reading hr
  · cases h

/-- The clock shows a time that can be read as it is written, at an offset of whole minutes. -/
def Legible (m : OffsetMoment) : Prop := m.wallTime.Legible ∧ m.offset % 60 = 0

instance (m : OffsetMoment) : Decidable m.Legible := inferInstanceAs (Decidable (_ ∧ _))

theorem Legible.offsetMoment?_reading (h : m.Legible) :
    (m.wallTime.reading m.offset).offsetMoment? = some m := by
  rw [Reading.offsetMoment?, h.1.moment?_reading, Option.bind_some]
  exact ofLocal?_eq_some.2 ⟨rfl, rfl⟩

/-- An offset moment is read as it is written for other programs, with a `Z` for offset zero. -/
theorem ofText_printZulu (h : m.Legible) : OffsetMoment.ofText m.printZulu = .ok m := by
  apply ofText_of_parseTimestamp?
  rw [printZulu, ← h.offsetMoment?_reading]
  split
  · rename_i hzero
    rw [hzero]
    apply parseTimestamp?_print h.1 rfl
    intro c hc
    cases hc
    decide
  · apply parseTimestamp?_print h.1 (takeZone?_offsetChars m.offset_lt h.2)
    intro c hc
    dsimp only [offsetChars] at hc
    split at hc <;> (cases hc; decide)

end OffsetMoment

end Parlance.Calendar
