import Parlance.Json.Basic
import Parlance.Value.Basic

/-!
# Values as JSON

`Value.toJson` writes a value, `Value.ofJson` reads a JSON value as a value of a given type. Decimals,
moments and guids are JSON strings; an enum value is its symbol, or its number if it has none. Reading
looks record fields up by name, and a field that is absent counts as null.
-/

namespace Parlance

/-! ## Errors -/

/-- The types whose literals stand in strings. -/
inductive Literal where
  | dateTime | dateTimeOffset | guid
  deriving DecidableEq, Repr

/-- The name of a literal's type. -/
def Literal.name : Literal → String
  | .dateTime => "datetime"
  | .dateTimeOffset => "datetimeoffset"
  | .guid => "guid"

/-- Why a value cannot be read or converted. -/
inductive ValueError where
  | invalidNumber (text : String) (kind : NumericKind)
  | outOfRange (number : Number) (kind : NumericKind)
  | mismatch (expected : ValueType) (found : Json)
  | invalidLiteral (text : String) (literal : Literal)
  | fieldCount (record : String) (expected actual : Nat)

/-- The wording of a value error. -/
def ValueError.message : ValueError → String
  | .invalidNumber text kind => s!"`{text}` is not a valid {kind.name}"
  | .outOfRange number kind => s!"{number.print} does not fit in {kind.name}"
  | .mismatch expected found => s!"expected {expected.print}, found {found.compact}"
  | .invalidLiteral text literal => s!"`{text}` is not a valid {literal.name}"
  | .fieldCount record expected actual =>
    s!"record `{record}` has {expected} fields, {actual} values given"

/-! ## Literals -/

/-- The number of a kind that a text denotes. -/
def Number.ofText (text : String) (kind : NumericKind) : Except ValueError Number :=
  match Number.parse? text kind with
  | some n => .ok n
  | none => .error (.invalidNumber text kind)

/-- The number in another kind, or the error that it does not fit. -/
def Number.convert (n : Number) (kind : NumericKind) : Except ValueError Number :=
  match n.convert? kind with
  | some m => .ok m
  | none => .error (.outOfRange n kind)

namespace Calendar

/-- The moment that a text denotes; blanks around it are ignored. -/
def Moment.ofText (text : String) : Except ValueError Moment :=
  let text := Text.trim text
  match parseMoment? text with
  | some m => .ok m
  | none => .error (.invalidLiteral text .dateTime)

/-- The moment with an offset that a text denotes; blanks around it are ignored. -/
def OffsetMoment.ofText (text : String) : Except ValueError OffsetMoment :=
  let text := Text.trim text
  match parseOffsetMoment? text with
  | some m => .ok m
  | none => .error (.invalidLiteral text .dateTimeOffset)

end Calendar

/-- The guid that a text denotes. -/
def Guid.ofText (text : String) : Except ValueError Guid :=
  match Guid.parse? text with
  | some g => .ok g
  | none => .error (.invalidLiteral text .guid)

/-- The record with these field values, if they are as many as the type has fields. -/
def Record.make? (type : RecordType) (fields : List Value) : Except ValueError Record :=
  if type.fields.length = fields.length then .ok ⟨type, fields⟩
  else .error (.fieldCount type.name type.fields.length fields.length)

/-! ## Writing -/

/-- A number as JSON; a decimal is a string. -/
def Number.toJson : Number → Json
  | .integral .char n _ => .string (String.singleton (Char.ofNat n.toNat))
  | .integral _ n _ => .integer n
  | .float x => .single x
  | .double x => .double x
  | .decimal d => .string d.print

namespace Value

mutual

/-- A value as JSON. -/
def toJson : Value → Json
  | null => .null
  | bool b => .bool b
  | number n => n.toJson
  | string s => .string s
  | dateTime m => .string m.print
  | dateTimeOffset m => .string m.printZulu
  | guid g => .string g.print
  | enum descriptor value =>
    match descriptor.symbolOf? value with
    | some symbol => .string symbol
    | none => .integer value.toInt
  | record type fields => .object (toJsonFields (type.fields.map (·.1)) fields)
  | list items => .array (toJsonItems items)

/-- The elements of a list as JSON. -/
def toJsonItems : List Value → List Json
  | [] => []
  | item :: items => item.toJson :: toJsonItems items

/-- The fields of a record as JSON. -/
def toJsonFields : List String → List Value → List (String × Json)
  | name :: names, value :: values => (name, value.toJson) :: toJsonFields names values
  | _, _ => []

end

/-! ## Reading -/

/-- The number that a JSON number stands for: a whole number of 64 bits, else a decimal if it is one,
else a double. -/
def jsonNumber? : Json → Option Number
  | .integer n => (Number.ofInt? .long n).orElse fun _ => Number.ofInt? .ulong n
  | .double x =>
    let decimal := ((Binary.Parts.ofDouble x).printJson? .double).bind Decimal.parse?
    some (match decimal with
      | some d => .decimal d
      | none => .double x)
  | _ => none

/-- The value of an enum that a JSON value stands for: a symbol in any case, or a number. -/
def jsonEnum? (descriptor : EnumType) : Json → Option Value
  | .string s => (descriptor.valueOf? true s).map (enum descriptor)
  | .integer n =>
    if NumericKind.long.holds n then some (enum descriptor (Int64.ofInt n)) else none
  | _ => none

mutual

/-- Reads a JSON value as a value of a type; `whole` is the type with the one wrapper that is taken off,
and an error names it. Nothing but null is read through a second wrapper. -/
def ofJsonAs (whole : ValueType) : ValueType → Json → Except ValueError Value
  | _, .null => if whole.acceptsNull then .ok null else .error (.mismatch whole .null)
  | .nullable inner, json =>
    if whole = .nullable inner then ofJsonAs whole inner json else .error (.mismatch whole json)
  | .bool, .bool b => .ok (bool b)
  | .string, .string s => .ok (string s)
  | .dateTime, .string s => (Calendar.Moment.ofText s).map dateTime
  | .dateTimeOffset, .string s => (Calendar.OffsetMoment.ofText s).map dateTimeOffset
  | .guid, .string s => (Guid.ofText s).map guid
  | .number kind, json =>
    match jsonNumber? json with
    | some n => (n.convert kind).map number
    | none => .error (.mismatch whole json)
  | .enum descriptor, json =>
    match jsonEnum? descriptor json with
    | some v => .ok v
    | none => .error (.mismatch whole json)
  | .collection element, .array items =>
    (items.mapM fun item => ofJsonAs element element item).map list
  | .record name fields, .object entries =>
    (ofJsonFields whole (.object entries) fields).map (record ⟨name, fields⟩)
  | _, json => .error (.mismatch whole json)

/-- Reads the fields of a record from a JSON object. -/
def ofJsonFields (whole : ValueType) (object : Json) :
    List (String × ValueType) → Except ValueError (List Value)
  | [] => .ok []
  | (name, type) :: rest => do
    let first ← match object.field? name with
      | some json => ofJsonAs type type json
      | none => if type.acceptsNull then .ok null else .error (.mismatch whole object)
    return first :: (← ofJsonFields whole object rest)

end

/-- Reads a JSON value as a value of a type. -/
def ofJson (type : ValueType) (json : Json) : Except ValueError Value := ofJsonAs type type json

end Value

end Parlance
