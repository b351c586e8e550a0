import Parlance.Grammar.Rule
import Parlance.Text.Quoted

/-!
# Descriptions

Types, functions, overloads and rules with all their parts by name, for those who write a language.
-/

namespace Parlance

/-- A name with its parts in braces; two dots if there are `more` than are shown. -/
def describeParts (name : String) (parts : List (String × String)) (more : Bool) : String :=
  let shown := parts.map (fun (label, text) => s!"{label}: {text}") ++ if more then [".."] else []
  name ++ " \x7b " ++ ", ".intercalate shown ++ " \x7d"

/-- Texts in square brackets. -/
def describeList (items : List String) : String := "[" ++ ", ".intercalate items ++ "]"

/-- An optional text. -/
def describeOption (item : Option String) : String :=
  match item with
  | some text => s!"Some({text})"
  | none => "None"

/-- A text in quotes. -/
def describeText (s : String) : String := Text.quoted .text s

/-- The name of a kind of numbers in descriptions. -/
def NumericKind.describe : NumericKind → String
  | sbyte => "SByte"
  | byte => "Byte"
  | short => "Short"
  | ushort => "UShort"
  | int => "Int"
  | uint => "UInt"
  | long => "Long"
  | ulong => "ULong"
  | char => "Char"
  | float => "Float"
  | double => "Double"
  | decimal => "Decimal"

/-- An enum type with its parts. -/
def EnumType.describe (e : EnumType) : String :=
  let members := e.members.map fun (symbol, value) => s!"({describeText symbol}, {value.toInt})"
  describeParts "EnumType"
    [("name", describeText e.name), ("underlying", e.underlying.describe),
      ("members", describeList members)] false

mutual

/-- A type with its parts. -/
def ValueType.describe : ValueType → String
  | .null => "Null"
  | .bool => "Bool"
  | .number kind => s!"Number({kind.describe})"
  | .string => "String"
  | .dateTime => "DateTime"
  | .dateTimeOffset => "DateTimeOffset"
  | .guid => "Guid"
  | .enum descriptor => s!"Enum({descriptor.describe})"
  | .record name fields =>
    let record := describeParts "RecordType"
      [("name", describeText name), ("fields", describeList (describeFields fields))] false
    s!"Record({record})"
  | .collection element => s!"Collection({element.describe})"
  | .nullable inner => s!"Nullable({inner.describe})"

/-- The fields of a record type with their types. -/
def describeFields : List (String × ValueType) → List String
  | [] => []
  | (name, type) :: fields => s!"({describeText name}, {type.describe})" :: describeFields fields

end

/-- A function with its signature. -/
def Function.describe (f : Function) : String :=
  describeParts "Function"
    [("name", describeText f.name),
      ("parameters", describeList (f.parameters.map ValueType.describe)),
      ("returns", f.returns.describe)] true

/-- An overload with its parameters. -/
def Overload.describe (o : Overload) : String :=
  let parameters := o.parameters.map fun types => describeList (types.map ValueType.describe)
  describeParts "Overload" [("parameters", describeOption parameters)] true

/-- The parts that only rules of one kind have. -/
def RuleKind.describeParts : RuleKind → List (String × String)
  | .operator positions precedence _ =>
    [("positions", describeList (positions.map Side.name)),
      ("precedence", describeOption (precedence.map toString))]
  | .functionCall overloads => [("overloads", describeList (overloads.map Overload.describe))]
  | .bracketClose opens delimiter =>
    [("opens", describeList (opens.map describeText)),
      ("delimiter", describeOption (delimiter.map describeText))]
  | _ => []

/-- A rule with its parts. -/
def Rule.describe (r : Rule) : String :=
  Parlance.describeParts "Rule"
    ([("name", describeText r.name), ("pattern", describeText r.pattern),
        ("kind", describeText r.kind.label)] ++
      (if r.ignored then [("ignore", "true")] else []) ++ r.kind.describeParts) false

end Parlance
