import Parlance.Extent
import Parlance.Text.Quoted

/-!
# Spans

A span is an extent of one particular text. Spans made by `Span.make?` lie on character boundaries of
their text. Spans of different texts are neither ordered nor comparable by position: the positional
tests answer only for spans of one text, and merging such spans is an error.
-/

namespace Parlance

/-- Why a span cannot be made. -/
inductive SpanError where
  | inverted (start stop : Nat)
  | outOfBounds (start stop length : Nat)
  | emptyInput
  | sourceMismatch
  deriving DecidableEq, Repr

/-- The wording of a span error. -/
def SpanError.message : SpanError → String
  | .inverted start stop => s!"span start {start} is after its end {stop}"
  | .outOfBounds start stop length =>
    s!"span {start}..{stop} does not fit a source of {length} bytes on char boundaries"
  | .emptyInput => "cannot encompass an empty set of spans"
  | .sourceMismatch => "spans refer to different source strings"

/-- An extent of a text. -/
structure Span where
  source : String
  extent : Extent
  deriving DecidableEq, Repr

namespace Span

/-- The span from `start` to `stop`, if these are in order and on character boundaries. -/
def make? (source : String) (start stop : Nat) : Except SpanError Span :=
  let cs := source.toList
  if stop < start then .error (.inverted start stop)
  else if Text.isBoundary cs start && Text.isBoundary cs stop then .ok ⟨source, ⟨start, stop⟩⟩
  else .error (.outOfBounds start stop (Text.byteLength cs))

/-- The span of a whole text. -/
def whole (source : String) : Span := ⟨source, .whole source⟩

/-- The empty span at an offset of the same text. -/
def point (s : Span) (offset : Nat) : Span := ⟨s.source, .point offset⟩

/-- The covered text. -/
def text (s : Span) : String := s.extent.slice s.source

/-- Whether two spans are over one text. -/
def sameSource (a b : Span) : Bool := a.source == b.source

/-- The least span that covers every given span. -/
def encompass? : List Span → Except SpanError Span
  | [] => .error .emptyInput
  | first :: rest =>
    if rest.all first.sameSource then
      .ok ⟨first.source, first.extent.coverAll (rest.map (·.extent))⟩
    else .error .sourceMismatch

/-- What lies after `a` and before `b`. -/
def between? (a b : Span) : Except SpanError Span :=
  if !a.sameSource b then .error .sourceMismatch
  else if b.extent.start < a.extent.stop then .error (.inverted a.extent.stop b.extent.start)
  else .ok ⟨a.source, a.extent.gap b.extent⟩

/-- Order by start, then by end, within one text. -/
def compare? (a b : Span) : Option Ordering :=
  if a.sameSource b then
    some ((compare a.extent.start b.extent.start).then (compare a.extent.stop b.extent.stop))
  else none

/-- Whether `a` starts at or after the end of `b`, for spans of one text. -/
def rightOf? (a b : Span) : Option Bool :=
  if a.sameSource b then some (a.extent.rightOf b.extent) else none

/-- Whether `a` ends at or before the start of `b`, for spans of one text. -/
def leftOf? (a b : Span) : Option Bool :=
  if a.sameSource b then some (a.extent.leftOf b.extent) else none

/-- Whether `s` lies in the gap between `a` and `b`, for spans of one text. -/
def isBetween? (s a b : Span) : Option Bool :=
  if s.sameSource a && s.sameSource b then some (s.extent.isBetween a.extent b.extent) else none

/-- Whether a span starts at or after an offset. -/
def rightOfIndex (s : Span) (offset : Nat) : Bool := offset ≤ s.extent.start

/-- The whole text with the span wrapped in `opening` and `closing`. -/
def highlight (s : Span) (opening closing : String) : String :=
  let cs := s.source.toList
  String.ofList (Text.takeBytes s.extent.start cs) ++ opening ++ s.text ++ closing ++
    String.ofList (Text.dropBytes s.extent.stop cs)

/-- The two offsets, as `start..stop`. -/
def print (s : Span) : String := s.extent.print

/-- The offsets together with the covered text. -/
def describe (s : Span) : String := s!"Span({s.print} {Text.quoted .text s.text})"

end Span

end Parlance
