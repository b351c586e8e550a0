/-!
# Moments in time

A `WallTime` is what a calendar and a clock show: a day of the Gregorian calendar, extended to all years,
with a second of that day and a nanosecond, which is beyond 10 ^ 9 in a leap second. A `Moment` is a wall
time in the years that moments can lie in. An `OffsetMoment` is a moment of universal time with a fixed
offset from it; the clock at the offset may show a time beyond those years. Two of them are compared by
the instant alone.
-/

namespace Parlance.Calendar

/-! ## Days -/

/-- Whether a year has 366 days. -/
def isLeapYear (year : Int) : Bool :=
  year % 4 == 0 && (year % 100 != 0 || year % 400 == 0)

/-- The number of days of a month. -/
def daysInMonth (year : Int) (month : Nat) : Nat :=
  match month with
  | 4 | 6 | 9 | 11 => 30
  | 2 => if isLeapYear year then 29 else 28
  | _ => 31

/-- A year, month and day. -/
structure Date where
  year : Int
  month : Nat
  day : Nat
  deriving DecidableEq, Repr

/-- The days from 1 March of year 0 to a date, where years are counted from March. -/
def Date.dayNumber (d : Date) : Int :=
  let year := if d.month ≤ 2 then d.year - 1 else d.year
  let month := (d.month + 9) % 12
  365 * year + Int.fdiv year 4 - Int.fdiv year 100 + Int.fdiv year 400 +
    (153 * month + 2) / 5 + d.day - 1

/-- The date a number of days after 1 March of year 0. -/
def Date.ofDayNumber (n : Int) : Date :=
  let era := Int.fdiv n 146097
  let dayOfEra := n - era * 146097
  let yearOfEra := (dayOfEra - dayOfEra / 1460 + dayOfEra / 36524 - dayOfEra / 146096) / 365
  let dayOfYear := dayOfEra - (365 * yearOfEra + yearOfEra / 4 - yearOfEra / 100)
  let month := ((5 * dayOfYear + 2) / 153).toNat
  let day := (dayOfYear - (153 * month + 2) / 5 + 1).toNat
  let civilMonth := if month < 10 then month + 3 else month - 9
  let year := yearOfEra + era * 400
  ⟨if civilMonth ≤ 2 then year + 1 else year, civilMonth, day⟩

/-- The first and the last year that a moment can lie in. -/
def firstYear : Int := -262143

@[inherit_doc firstYear] def lastYear : Int := 262142

/-- The date with these parts, if the calendar has it. -/
def Date.make? (year : Int) (month day : Nat) : Option Date :=
  if firstYear ≤ year && year ≤ lastYear && 1 ≤ month && month ≤ 12 && 1 ≤ day &&
      day ≤ daysInMonth year month then
    some ⟨year, month, day⟩
  else none

/-! ## Wall times -/

/-- The seconds of a day. -/
def daySeconds : Nat := 86400

/-- The nanoseconds of a second. -/
def secondNanos : Nat := 1000000000

/-- A second of the day, and a nanosecond of it or of a leap second after it. -/
def ClockTime (second nanosecond : Nat) : Prop :=
  second < daySeconds ∧ nanosecond < 2 * secondNanos

instance (second nanosecond : Nat) : Decidable (ClockTime second nanosecond) :=
  inferInstanceAs (Decidable (_ ∧ _))

/-- A day and a time of the day. -/
structure WallTime where
  day : Int
  second : Nat
  nanosecond : Nat
  clock : ClockTime second nanosecond
  deriving DecidableEq, Repr

namespace WallTime

/-- The calendar date. -/
def date (w : WallTime) : Date := .ofDayNumber w.day

/-- The hour of the day. -/
def hour (w : WallTime) : Nat := w.second / 3600

/-- The minute of the hour. -/
def minute (w : WallTime) : Nat := w.second / 60 % 60

/-- The second of the minute; a leap second counts as the one before it. -/
def secondOfMinute (w : WallTime) : Nat := w.second % 60

/-- Order in time. -/
def compare (a b : WallTime) : Ordering :=
  (Ord.compare a.day b.day).then
    ((Ord.compare a.second b.second).then (Ord.compare a.nanosecond b.nanosecond))

theorem clockTime_mod {nanosecond : Nat} (h : nanosecond < 2 * secondNanos) (n : Int) :
    ClockTime (n % daySeconds).toNat nanosecond := by
  refine ⟨?_, h⟩
  unfold daySeconds
  omega

/-- The time a number of seconds later; a leap second stays one. -/
def addSeconds (w : WallTime) (seconds : Int) : WallTime :=
  ⟨w.day + (w.second + seconds) / daySeconds, ((w.second + seconds) % daySeconds).toNat, w.nanosecond,
    clockTime_mod w.clock.2 _⟩

end WallTime

/-! ## Moments -/

/-- Moments can lie on a day. -/
def InCalendar (day : Int) : Prop :=
  firstYear ≤ (Date.ofDayNumber day).year ∧ (Date.ofDayNumber day).year ≤ lastYear

instance (day : Int) : Decidable (InCalendar day) := inferInstanceAs (Decidable (_ ∧ _))

/-- A date and time without an offset. -/
structure Moment extends WallTime where
  inCalendar : InCalendar day
  deriving DecidableEq, Repr

/-- The moment that a calendar and a clock show, if there is one. -/
def WallTime.moment? (w : WallTime) : Option Moment :=
  if h : InCalendar w.day then some ⟨w, h⟩ else none

/-- The moment on a date at a time; second 60 is the leap second after second 59. -/
def Moment.make? (date : Date) (hour minute second nanosecond : Nat) : Option Moment :=
  let (second, nanosecond) :=
    if second = 60 then (59, nanosecond + secondNanos) else (second, nanosecond)
  let ofDay := hour * 3600 + minute * 60 + second
  if h : ClockTime ofDay nanosecond then
    if hour ≤ 23 && minute ≤ 59 && second ≤ 59 && (nanosecond < secondNanos || second = 59) then
      (⟨date.dayNumber, ofDay, nanosecond, h⟩ : WallTime).moment?
    else none
  else none

/-- A moment of universal time with the local offset in seconds, less than a day. -/
structure OffsetMoment where
  universal : Moment
  offset : Int
  offset_lt : offset.natAbs < daySeconds
  deriving DecidableEq, Repr

namespace OffsetMoment

/-- What the clock at the offset shows. -/
def wallTime (m : OffsetMoment) : WallTime := m.universal.addSeconds m.offset

/-- What the clock at the offset shows, as a moment; there is none beyond the ends of the calendar. -/
def localTime? (m : OffsetMoment) : Option Moment := m.wallTime.moment?

/-- The moment when a clock at an offset shows a reading, if the calendar has it. -/
def ofLocal? (reading : Moment) (offset : Int) : Option OffsetMoment :=
  if h : offset.natAbs < daySeconds then
    (reading.addSeconds (-offset)).moment?.map (⟨·, offset, h⟩)
  else none

/-- A reading taken as universal time. -/
def ofUniversal (reading : Moment) : OffsetMoment := ⟨reading, 0, by decide⟩

/-- Order in time, whatever the offsets. -/
def compare (a b : OffsetMoment) : Ordering := a.universal.compare b.universal.toWallTime

end OffsetMoment

end Parlance.Calendar
