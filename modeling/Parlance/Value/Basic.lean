import Parlance.Calendar.Text
import Parlance.Guid
import Parlance.Number
import Parlance.ValueType

/-!
# Values

`Value` is what an expression evaluates to. A record holds one value per field of its type, in order.
`Value.same` is equality: floating-point numbers compare by their own rules, decimals by value and
moments with an offset by the instant.
-/

namespace Parlance

/-- The result of evaluating an expression. -/
inductive Value where
  | null
  | bool (b : Bool)
  | number (n : Number)
  | string (s : String)
  | dateTime (m : Calendar.Moment)
  | dateTimeOffset (m : Calendar.OffsetMoment)
  | guid (g : Guid)
  | enum (descriptor : EnumType) (value : Int64)
  | record (type : RecordType) (fields : List Value)
  | list (items : List Value)

namespace Value

instance : Inhabited Value := ⟨.null⟩

/-- A number of kind `int`, if that holds it. -/
def ofInt? (n : Int) : Option Value := (Number.ofInt? .int n).map number

/-- A decimal number. -/
def ofDecimal (d : Decimal) : Value := number (.decimal d)

/-! ## Views -/

/-- Whether the value is null. -/
def isNull (v : Value) : Bool := v matches null

/-- The truth value of a boolean. -/
def toBool? : Value → Option Bool
  | bool b => some b
  | _ => none

/-- The number of a numeric value. -/
def toNumber? : Value → Option Number
  | number n => some n
  | _ => none

/-- The text of a string. -/
def toText? : Value → Option String
  | string s => some s
  | _ => none

mutual

/-- The most specific type of a value; a list goes by its first element that is not null. -/
def type : Value → ValueType
  | null => .null
  | bool _ => .bool
  | number n => .number n.kind
  | string _ => .string
  | dateTime _ => .dateTime
  | dateTimeOffset _ => .dateTimeOffset
  | guid _ => .guid
  | enum descriptor _ => .enum descriptor
  | record type _ => type.type
  | list items => .collection (elementType items)

/-- The type of the first element that is not null. -/
def elementType : List Value → ValueType
  | [] => .null
  | item :: items => if item.isNull then elementType items else item.type

end

/-! ## Equality -/

mutual

/-- Equality of values. -/
def same : Value → Value → Bool
  | null, null => true
  | bool a, bool b => a == b
  | number a, number b => a.same b
  | string a, string b => a == b
  | dateTime a, dateTime b => a = b
  | dateTimeOffset a, dateTimeOffset b => a.universal = b.universal
  | guid a, guid b => a = b
  | enum d a, enum e b => d = e && a == b
  | record t xs, record u ys => t = u && sameItems xs ys
  | list xs, list ys => sameItems xs ys
  | _, _ => false

/-- Equality of lists of values, element by element. -/
def sameItems : List Value → List Value → Bool
  | [], [] => true
  | x :: xs, y :: ys => same x y && sameItems xs ys
  | _, _ => false

end

/-! ## Text -/

/-- A text between single quotes, with a backslash before single quotes in it. -/
def quote (s : String) : String :=
  String.ofList ('\'' :: s.toList.flatMap (fun c => if c = '\'' then ['\\', c] else [c]) ++ ['\''])

/-- The text of an enum value: its symbol after the enum's name, or its number in brackets. -/
def printEnum (descriptor : EnumType) (value : Int64) : String :=
  match descriptor.symbolOf? value with
  | some symbol => s!"{descriptor.name}.{symbol}"
  | none => s!"{descriptor.name}({value.toInt})"

mutual

/-- The text of a value. -/
def print : Value → String
  | null => "null"
  | bool b => toString b
  | number n => n.print
  | string s => quote s
  | dateTime m => s!"datetime'{m.print}'"
  | dateTimeOffset m => s!"datetimeoffset'{m.print}'"
  | guid g => s!"guid'{g.print}'"
  | enum descriptor value => printEnum descriptor value
  | record type fields =>
    type.name ++ " \x7b" ++ ",".intercalate (printFields (type.fields.map (·.1)) fields) ++ " \x7d"
  | list items => "[" ++ ", ".intercalate (printItems items) ++ "]"

/-- The texts of the elements of a list. -/
def printItems : List Value → List String
  | [] => []
  | item :: items => item.print :: printItems items

/-- The texts of the fields of a record with their names, each after a blank. -/
def printFields : List String → List Value → List String
  | name :: names, value :: values => s!" {name}: {value.print}" :: printFields names values
  | _, _ => []

end

end Value

/-! ## Records -/

/-- A record type with a list of field values. -/
structure Record where
  type : RecordType
  fields : List Value

namespace Record

/-- The record as a value. -/
def toValue (r : Record) : Value := .record r.type r.fields

/-- The record whose fields have the values of a list of pairs, the later ones winning; names are
looked up as in `RecordType.field?`, unknown ones are ignored and fields without a pair are null. -/
def ofPairs (type : RecordType) (pairs : List (String × Value)) : Record :=
  ⟨type, pairs.foldl (fun fields (name, value) =>
    match type.field? name with
    | some field => fields.set field.index value
    | none => fields) (type.fields.map fun _ => .null)⟩

/-- The value of the field with a name. -/
def get? (r : Record) (name : String) : Option Value :=
  (r.type.field? name).bind fun field => r.fields[field.index]?

end Record

end Parlance
