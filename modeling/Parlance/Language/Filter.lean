import Parlance.Diagnostic
import Parlance.Text.CaseMap

/-!
# Predicates over records

The language of filters: literals of every kind, comparisons and connectives in words, arithmetic in
words, functions on strings and dates, members of records, and predicates over collections with a named
element. A filter selects the records for which its predicate is true; null is not true.
-/

namespace Parlance.Filter

/-! ## Functions -/

/-- The texts of string arguments. -/
def textArgs : List Value → Except HostFailure (List String)
  | [] => .ok []
  | .string s :: args => do return s :: (← textArgs args)
  | _ :: _ => .error "expected a string"

/-- A function of strings, null if one of them is null. -/
def ofTexts (name : String) (arity : Nat) (returns : ValueType)
    (body : List String → Except HostFailure Value) : Function :=
  ⟨name, List.replicate arity .string, returns.orNull, fun args =>
    if args.any Value.isNull then .ok .null
    else do body (← textArgs args)⟩

/-- A function of one string. -/
def ofText (name : String) (returns : ValueType) (body : String → Except HostFailure Value) : Function :=
  ofTexts name 1 returns fun
    | [s] => body s
    | _ => .error "expected a string"

/-- A test of two strings. -/
def testOfTexts (name : String) (test : String → String → Bool) : Function :=
  ofTexts name 2 .bool fun
    | [a, b] => .ok (.bool (test a b))
    | _ => .error "expected a string"

/-- Whether a text starts with another one. -/
def startsWith (text start : String) : Bool := start.toList.isPrefixOf text.toList

/-- Whether a text ends with another one. -/
def endsWith (text tail : String) : Bool := tail.toList.isSuffixOf text.toList

/-- Whether a list of characters stands somewhere in another one. -/
def occursIn (part : List Char) : List Char → Bool
  | [] => part.isEmpty
  | c :: rest => part.isPrefixOf (c :: rest) || occursIn part rest

/-- A whole number that functions answer with. -/
def intResult (n : Int) : Except HostFailure Value :=
  match Value.ofInt? n with
  | some v => .ok v
  | none => .error "out of range integral type conversion attempted"

/-- Rounding to a whole number, a half to the even one. -/
def round : Function :=
  ⟨"round", [.number .decimal], .number .decimal, fun
    | .number (.decimal d) :: _ => .ok (.ofDecimal (d.roundTo 0))
    | .null :: _ => .ok .null
    | _ => .error "round needs a decimal"⟩

/-- A part of a moment, of the local time where there is an offset; null for null. There is a panic if
the calendar does not have the local time. -/
def datePart (name : String) (part : Calendar.WallTime → Int) (type : ValueType) : Function :=
  ⟨name, [type.orNull], (ValueType.number .int).orNull, fun
    | .dateTime m :: _ => intResult (part m.toWallTime)
    | .dateTimeOffset m :: _ =>
      match m.localTime? with
      | some reading => intResult (part reading.toWallTime)
      | none => .error (.panic "Local time out of range for `NaiveDateTime`")
    | .null :: _ => .ok .null
    | _ => .error "expected a date and time"⟩

/-- A part of moments with and without an offset. -/
def dateParts (name : String) (part : Calendar.WallTime → Int) : List Function :=
  [datePart name part .dateTime, datePart name part .dateTimeOffset]

/-- The function brackets with their patterns and overloads. -/
def functions : List (String × String × List Function) :=
  [("FN_STARTSWITH", "startswith\\(", [testOfTexts "startswith" startsWith]),
    ("FN_ENDSWITH", "endswith\\(", [testOfTexts "endswith" endsWith]),
    ("FN_SUBSTRINGOF", "substringof\\(",
      [testOfTexts "substringof" fun part text => occursIn part.toList text.toList]),
    ("FN_TOLOWER", "tolower\\(",
      [ofText "tolower" .string fun s => .ok (.string (Text.toLower s))]),
    ("FN_TOUPPER", "toupper\\(",
      [ofText "toupper" .string fun s => .ok (.string (Text.toUpper s))]),
    ("FN_LENGTH", "length\\(", [ofText "length" (.number .int) fun s => intResult s.length]),
    ("FN_ROUND", "round\\(", [round]),
    ("FN_YEAR", "year\\(", dateParts "year" fun m => m.date.year),
    ("FN_MONTH", "month\\(", dateParts "month" fun m => m.date.month),
    ("FN_DAY", "day\\(", dateParts "day" fun m => m.date.day),
    ("FN_HOUR", "hour\\(", dateParts "hour" fun m => m.hour),
    ("FN_MINUTE", "minute\\(", dateParts "minute" fun m => m.minute),
    ("FN_SECOND", "second\\(", dateParts "second" fun m => m.secondOfMinute)]

/-! ## Literals -/

/-- The characters between the first single quote and one at the end. -/
def quotedPart (text : String) : String :=
  let cs := text.toList
  let body := if cs.contains '\'' then (cs.dropWhile (· != '\'')).drop 1 else cs
  String.ofList (if body.getLast? = some '\'' then body.dropLast else body)

/-- The character that a letter stands for after a backslash; any other character is itself. -/
def escaped : Char → Char
  | 'r' => '\r'
  | 'n' => '\n'
  | 't' => '\t'
  | 'f' => '\x0c'
  | 'b' => '\x08'
  | c => c

/-- Replaces every backslash and the character after it by what they stand for. -/
def unescape : List Char → List Char
  | [] => []
  | ['\\'] => ['\\']
  | '\\' :: c :: rest => escaped c :: unescape rest
  | c :: rest => c :: unescape rest

/-- The text of a string literal without its quotes. -/
def stringValue (text : String) : String :=
  String.ofList (unescape (text.toList.drop 1).dropLast)

/-- A numeral without the letter of its kind, and without a point at its end. -/
def numeralPart (text : String) : String :=
  String.ofList
    ((text.toList.reverse.dropWhile Char.isAlpha).dropWhile (· == '.')).reverse

/-- A number of a kind. -/
def numberRule (name pattern : String) (kind : NumericKind) : Rule :=
  .operand name pattern fun text =>
    Refusal.ofValue
      ((Number.ofText (numeralPart text) kind).map fun n => Expr.ofValue (.number n))

/-- The byte of one or two hexadecimal digits after `0x`. -/
def byteValue (text : String) : Except Refusal Expr :=
  match (Text.hexValue? (text.toList.drop 2)).bind fun n => Number.ofInt? .byte n with
  | some n => .ok (Expr.ofValue (.number n))
  | none => .error (.host "number too large to fit in target type")

/-- The pattern of a guid literal. -/
def guidPattern : String :=
  "guid'[0-9A-Fa-f]\x7b8\x7d-[0-9A-Fa-f]\x7b4\x7d-[0-9A-Fa-f]\x7b4\x7d-[0-9A-Fa-f]\x7b4\x7d-[0-9A-Fa-f]\x7b12\x7d'"

/-- The rules of literals. -/
def literals : List Rule :=
  [.operand "GUID" guidPattern fun text =>
      Refusal.ofValue ((Guid.ofText (quotedPart text)).map fun g => Expr.ofValue (.guid g)),
    .operand "DATETIME" "(?i:datetime)'[^']+'" fun text =>
      Refusal.ofValue
        ((Calendar.Moment.ofText (quotedPart text)).map fun m => Expr.ofValue (.dateTime m)),
    .operand "DATETIMEOFFSET" "datetimeoffset'[^']+'" fun text =>
      Refusal.ofValue
        ((Calendar.OffsetMoment.ofText (quotedPart text)).map fun m =>
          Expr.ofValue (.dateTimeOffset m)),
    .operand "STRING" "'(?:\\\\.|[^'])*'" fun text =>
      .ok (Expr.ofValue (.string (stringValue text))),
    .operand "BYTE" "0x[0-9A-Fa-f]\x7b1,2\x7d" byteValue,
    .operand "NULL" "\\bnull\\b" fun _ => .ok Expr.null,
    .operand "BOOL" "\\b(?:true|false)\\b" fun text => .ok (Expr.ofValue (.bool (text == "true"))),
    numberRule "FLOAT" "-?\\d+\\.\\d*f" .float,
    numberRule "DOUBLE" "-?\\d+\\.?\\d*d" .double,
    numberRule "DECIMAL_EXPLICIT" "-?\\d+\\.?\\d*[mM]" .decimal,
    numberRule "DECIMAL" "-?\\d+\\.\\d+" .decimal,
    numberRule "LONG" "-?\\d+L" .long,
    numberRule "INTEGER" "-?\\d+" .int]

/-! ## Operators -/

/-- The expression as a truth value where it is one, else unchanged. -/
def truthful (e : Expr) : Expr := e.toBoolean?.getD e

/-- A predicate over a collection. -/
def quantifier (op : CollectionOp) : CollectionBuilder := fun _ source body =>
  Refusal.ofExpr (Expr.collection? op source (body.parameter.map (·.1)) (body.body.map truthful))

/-- Equality, where an enum takes a number or a constant string on the other side. -/
def equality (op : BinaryOp) (left right : Expr) : Except Refusal Expr := do
  let pair := Pairing.enumNumber left right
  let pair ←
    if pair.done then pure pair
    else (Pairing.enumString true pair.left pair.right).mapError .conversion
  Refusal.ofExpr (Expr.binary? op pair.left pair.right)

/-- A connective between truth values. -/
def connective (op : BinaryOp) (left right : Expr) : Except Refusal Expr :=
  Refusal.ofExpr (Expr.binary? op (truthful left) (truthful right))

/-- An operator on two operands of a common type. -/
def plain (op : BinaryOp) (left right : Expr) : Except Refusal Expr :=
  Refusal.ofExpr (Expr.binary? op left right)

/-- What a name stands for: the innermost element of that name, else a field of the record. -/
def property (text : String) (parameters : List Parameter) : Except Refusal Expr :=
  let named := parameters.zipIdx.reverse.find? fun (p, _) => p.name.any (Text.eqIgnoreCase · text)
  match named, parameters with
  | some (p, slot), _ => .ok (Expr.ofParameter slot p)
  | none, record :: _ => Refusal.ofExpr (Expr.field? (Expr.ofParameter 0 record) text)
  | none, [] => .error (.expr (.unbound text))

/-- The member of a record that a name after a slash stands for. -/
def member : OperatorBuilder
  | text, [target] => Refusal.ofExpr (Expr.field? target (String.ofList (text.toList.drop 1)))
  | _, args => .error (.expr (.operandCount 1 args.length))

/-- The names of all brackets. -/
def brackets : List String := "OPEN_BRACKET" :: functions.map (·.1) ++ ["ANY", "ALL"]

/-- The rules; the earlier of two that match wins, so that quantifiers are no members, and words with a
meaning of their own are no properties. -/
def rules : List Rule :=
  literals ++
  [.collection "ANY" "/any\\(" (quantifier .any), .collection "ALL" "/all\\(" (quantifier .all)] ++
  functions.map (fun (name, pattern, fs) =>
    .functionCall name pattern (fs.map Overload.ofFunction)) ++
  [.bracketOpen "OPEN_BRACKET" "\\(",
    .listDelimiter "COMMA" ",",
    .bracketClose "CLOSE_BRACKET" "\\)" brackets (some "COMMA"),
    .binary "EQ" "\\beq\\b" 11 (equality .equal),
    .binary "NE" "\\bne\\b" 12 (equality .notEqual),
    .binary "GT" "\\bgt\\b" 13 (plain .greater),
    .binary "GE" "\\bge\\b" 14 (plain .greaterOrEqual),
    .binary "LT" "\\blt\\b" 15 (plain .less),
    .binary "LE" "\\ble\\b" 16 (plain .lessOrEqual),
    .binary "AND" "\\band\\b" 17 (connective .and),
    .binary "OR" "\\bor\\b" 18 (connective .or),
    .unary "NOT" "\\bnot\\b" 19 .right fun operand =>
      Refusal.ofExpr (Expr.unary? .not (truthful operand)),
    .binary "ADD" "\\badd\\b" 2 (plain .add),
    .binary "SUB" "\\bsub\\b" 2 (plain .subtract),
    .binary "MUL" "\\bmul\\b" 1 (plain .multiply),
    .binary "DIV" "\\bdiv\\b" 1 (plain .divide),
    .binary "MOD" "\\bmod\\b" 1 (plain .modulo),
    .collectionAccessor "ACCESSOR" "[A-Za-z_][A-Za-z0-9_]*:",
    .operandIn "PROPERTY" "[A-Za-z_][A-Za-z0-9_]*" property,
    .operatorOf "MEMBER" "/[A-Za-z_][A-Za-z0-9_]*" (some 0) [.left] member,
    .ignoring "WHITESPACE" "\\s+"]

set_option maxRecDepth 100000 in
theorem rules_fit : (Language.make? rules).toOption.isSome = true := by decide +kernel

/-- The language of filters. -/
def language : Language := .ofRules rules rules_fit

/-! ## Filters -/

/-- The predicate of a text over a record. -/
def parse (text : String) (record : RecordType) : Except ParseError Lambda := do
  let parameters := [⟨none, record.type⟩]
  let body ← language.parse text parameters
  match body.toBoolean? with
  | some predicate => return ⟨parameters, predicate⟩
  | none =>
    (Extent.whole text).fail (.operationInvalid (.expr (.predicateType body.type)))

/-- Whether a predicate holds for a record. -/
def selects (predicate : Lambda) (row : Record) : Except EvalError Bool := do
  return (← predicate.invoke [row.toValue]).same (.bool true)

/-- The elements of a list that a test holds for, up to its first failure. -/
def keepM {α : Type} (test : α → Except EvalError Bool) : List α → Except EvalError (List α)
  | [] => .ok []
  | x :: xs => do
    let keep ← test x
    let others ← keepM test xs
    return if keep then x :: others else others

/-- The records for which the predicate of a text holds. -/
def filter (text : String) (record : RecordType) (rows : List Record) :
    Except RunError (List Record) := do
  let predicate ← RunError.ofParse (parse text record)
  RunError.ofEval (keepM (selects predicate) rows)

end Parlance.Filter
