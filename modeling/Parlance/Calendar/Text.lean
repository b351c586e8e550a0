import Parlance.Calendar.Moment
import Parlance.Text.Digit
import Parlance.Text.Property

/-!
# Dates and times as text

A `Layout` lists what stands in a text: numeric fields, a fraction of a second, an offset, blanks and
fixed characters. Numeric fields skip blanks before them and take as many digits as fit their width.
`parseTimestamp?` reads the strict internet form with its offset. The writers show a fraction with
three, six or nine digits, whichever is the fewest that is exact.
-/

namespace Parlance.Calendar

open Parlance.Text

/-! ## Layouts -/

/-- An element of a layout. -/
inductive Field where
  | year | month | day | hour | minute | second
  | fraction
  | offset
  | blanks
  | fixed (c : Char)
  deriving DecidableEq, Repr

/-- The fields read so far; the offset is in seconds. -/
structure Reading where
  year : Int := 0
  month : Nat := 1
  day : Nat := 1
  hour : Nat := 0
  minute : Nat := 0
  second : Nat := 0
  nanosecond : Nat := 0
  offset : Int := 0
  deriving DecidableEq, Repr

/-- Reads the digits at the front, at most `width` and at least one of them. -/
def takeNumber? (width : Nat) (cs : List Char) : Option (Nat × List Char) :=
  let digits := (cs.take width).takeWhile Char.isDigit
  if digits.isEmpty then none else some (decimalValue digits, cs.drop digits.length)

/-- Reads exactly `width` digits. -/
def takeExactly? (width : Nat) (cs : List Char) : Option (Nat × List Char) :=
  let digits := cs.take width
  if digits.length = width && digits.all Char.isDigit then
    some (decimalValue digits, cs.drop width)
  else none

/-- Reads a year: four digits at most, or any number of digits after a sign. -/
def takeYear? : List Char → Option (Int × List Char)
  | '-' :: rest => (takeNumber? rest.length rest).map fun (n, rest) => (-(n : Int), rest)
  | '+' :: rest => (takeNumber? rest.length rest).map fun (n, rest) => ((n : Int), rest)
  | cs => (takeNumber? 4 cs).map fun (n, rest) => ((n : Int), rest)

/-- Reads the digits after a point as nanoseconds; digits beyond the ninth are dropped. -/
def takeNanos? (cs : List Char) : Option (Nat × List Char) :=
  (takeNumber? 9 cs).map fun (n, rest) =>
    (n * Nat.pow 10 (9 - (cs.length - rest.length)), rest.dropWhile Char.isDigit)

/-- Reads an optional fraction: none unless a point follows. -/
def takeFraction? : List Char → Option (Nat × List Char)
  | '.' :: rest => takeNanos? rest
  | cs => some (0, cs)

/-- Reads a sign, two digits of hours and two of minutes, with `separator` applied between them. The
result is in seconds. -/
def takeOffset? (separator : List Char → Option (List Char)) (cs : List Char) :
    Option (Int × List Char) := do
  let (negative, rest) ← match cs with
    | '+' :: rest => some (false, rest)
    | '-' :: rest => some (true, rest)
    | '\u2212' :: rest => some (true, rest)
    | _ => none
  let (hours, rest) ← takeExactly? 2 rest
  let rest ← separator rest
  let (minutes, rest) ← takeExactly? 2 rest
  if minutes ≤ 59 then
    let total : Int := hours * 3600 + minutes * 60
    some (if negative then -total else total, rest)
  else none

/-- Reads one field of a layout. -/
def Field.take? (r : Reading) (cs : List Char) : Field → Option (Reading × List Char)
  | .year => (takeYear? (cs.dropWhile isBlank)).map fun (n, rest) => ({ r with year := n }, rest)
  | .month => (takeNumber? 2 (cs.dropWhile isBlank)).map fun (n, rest) => ({ r with month := n }, rest)
  | .day => (takeNumber? 2 (cs.dropWhile isBlank)).map fun (n, rest) => ({ r with day := n }, rest)
  | .hour => (takeNumber? 2 (cs.dropWhile isBlank)).map fun (n, rest) => ({ r with hour := n }, rest)
  | .minute =>
    (takeNumber? 2 (cs.dropWhile isBlank)).map fun (n, rest) => ({ r with minute := n }, rest)
  | .second =>
    (takeNumber? 2 (cs.dropWhile isBlank)).map fun (n, rest) => ({ r with second := n }, rest)
  | .fraction => (takeFraction? cs).map fun (n, rest) => ({ r with nanosecond := n }, rest)
  | .offset =>
    (takeOffset? (fun cs => some (cs.dropWhile fun c => c == ':' || isBlank c))
      (cs.dropWhile isBlank)).map fun (n, rest) => ({ r with offset := n }, rest)
  | .blanks => some (r, cs.dropWhile isBlank)
  | .fixed c => match cs with
    | d :: rest => if c = d then some (r, rest) else none
    | [] => none

/-- Reads a whole text by a layout. -/
def readLayout? (layout : List Field) (text : String) : Option Reading := do
  let (r, rest) ← layout.foldlM (fun (r, cs) field => field.take? r cs) (({} : Reading), text.toList)
  if rest.isEmpty then some r else none

/-- The moment that a reading denotes, if the calendar has it. -/
def Reading.moment? (r : Reading) : Option Moment :=
  (Date.make? r.year r.month r.day).bind fun date =>
    Moment.make? date r.hour r.minute r.second r.nanosecond

/-- The moment and offset that a reading denotes, if the calendar has it on the clock at the offset and in
universal time. -/
def Reading.offsetMoment? (r : Reading) : Option OffsetMoment :=
  r.moment?.bind fun reading => OffsetMoment.ofLocal? reading r.offset

/-- Year, month and day with dashes. -/
def dateLayout : List Field := [.year, .fixed '-', .month, .fixed '-', .day]

/-- Hours and minutes. -/
def clockLayout : List Field := [.hour, .fixed ':', .minute]

/-- Hours, minutes, seconds and a fraction. -/
def fullClockLayout : List Field := clockLayout ++ [.fixed ':', .second, .fraction]

/-- A date and a full clock time with a `T` between them. -/
def localLayout : List Field := dateLayout ++ .fixed 'T' :: fullClockLayout

/-- The layouts of a date and time without an offset, the first match wins; a bare date is midnight. -/
def momentLayouts : List (List Field) :=
  [localLayout, dateLayout ++ .blanks :: fullClockLayout, dateLayout ++ .fixed 'T' :: clockLayout,
   dateLayout ++ .blanks :: clockLayout, dateLayout]

/-- Reads a moment by one layout. -/
def parseMomentAs? (layout : List Field) (text : String) : Option Moment :=
  (readLayout? layout text).bind Reading.moment?

/-- Reads a date and time without an offset. -/
def parseMoment? (text : String) : Option Moment :=
  momentLayouts.findSome? (parseMomentAs? · text)

/-- Reads the offset of a timestamp: `Z`, or hours and minutes with a colon. -/
def takeZone? : List Char → Option (Int × List Char)
  | 'Z' :: rest | 'z' :: rest => some (0, rest)
  | cs => takeOffset? (fun | ':' :: rest => some rest | _ => none) cs

/-- Reads the strict timestamp form, where every field has its full width. -/
def parseTimestamp? (text : String) : Option OffsetMoment := do
  let fixed := fun (c : Char) (cs : List Char) => Field.take? {} cs (.fixed c)
  let (year, cs) ← takeExactly? 4 text.toList
  let (_, cs) ← fixed '-' cs
  let (month, cs) ← takeExactly? 2 cs
  let (_, cs) ← fixed '-' cs
  let (day, cs) ← takeExactly? 2 cs
  let cs ← match cs with
    | c :: rest => if c = 't' || c = 'T' || c = ' ' then some rest else none
    | [] => none
  let (hour, cs) ← takeExactly? 2 cs
  let (_, cs) ← fixed ':' cs
  let (minute, cs) ← takeExactly? 2 cs
  let (_, cs) ← fixed ':' cs
  let (second, cs) ← takeExactly? 2 cs
  let (nanosecond, cs) ← takeFraction? cs
  let (offset, cs) ← takeZone? cs
  if cs.isEmpty then
    Reading.offsetMoment? ⟨year, month, day, hour, minute, second, nanosecond, offset⟩
  else none

/-- Reads a date and time with an offset: a timestamp, or the looser layout with blanks. -/
def parseOffsetMoment? (text : String) : Option OffsetMoment :=
  (parseTimestamp? text).orElse fun _ =>
    (readLayout? (dateLayout ++ .blanks :: fullClockLayout ++ [.offset]) text).bind
      Reading.offsetMoment?

/-! ## Writing -/

/-- A year with at least four digits, signed unless it lies from 0 to 9999. -/
def yearChars (year : Int) : List Char :=
  if 0 ≤ year && year ≤ 9999 then padded 10 4 year.toNat
  else (if year < 0 then '-' else '+') :: padded 10 4 year.natAbs

/-- A fraction of a second with as many groups of three digits as it needs. -/
def fractionChars (nanosecond : Nat) : List Char :=
  if nanosecond = 0 then []
  else if nanosecond % 1000000 = 0 then '.' :: padded 10 3 (nanosecond / 1000000)
  else if nanosecond % 1000 = 0 then '.' :: padded 10 6 (nanosecond / 1000)
  else '.' :: padded 10 9 nanosecond

/-- A date and time with a `T` between them; a leap second is written as one second more. -/
def WallTime.chars (w : WallTime) : List Char :=
  let d := w.date
  let leap := w.nanosecond / secondNanos
  yearChars d.year ++ '-' :: padded 10 2 d.month ++ '-' :: padded 10 2 d.day ++ 'T' :: padded 10 2 w.hour ++
    ':' :: padded 10 2 w.minute ++ ':' :: padded 10 2 (w.secondOfMinute + leap) ++
    fractionChars (w.nanosecond % secondNanos)

/-- A moment without an offset as text. -/
def Moment.print (m : Moment) : String := String.ofList m.chars

/-- An offset as signed hours and minutes, to the nearest minute. -/
def offsetChars (offset : Int) : List Char :=
  let minutes := (offset.natAbs + 30) / 60
  (if offset < 0 then '-' else '+') :: padded 10 2 (minutes / 60) ++ ':' :: padded 10 2 (minutes % 60)

/-- A moment with its offset in hours and minutes, whether the calendar has its local time or not. -/
def OffsetMoment.print (m : OffsetMoment) : String :=
  String.ofList (m.wallTime.chars ++ offsetChars m.offset)

/-- A moment with its offset, where offset zero is a `Z`. -/
def OffsetMoment.printZulu (m : OffsetMoment) : String :=
  String.ofList (m.wallTime.chars ++ if m.offset = 0 then ['Z'] else offsetChars m.offset)

end Parlance.Calendar
