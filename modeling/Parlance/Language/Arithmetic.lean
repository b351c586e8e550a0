import Parlance.Diagnostic

/-!
# Decimal arithmetic

The language of decimal formulas: numbers, brackets, the four operations and the remainder, functions on
doubles, rounding, and paths to the properties of a record. A formula denotes a decimal; what is not one
is converted.
-/

namespace Parlance.Arithmetic

/-! ## Functions -/

/-- The numeric argument at a place, as a double. -/
def doubleArg (args : List Value) (index : Nat) : Except HostFailure Float :=
  match args[index]?.bind Value.toNumber? with
  | some n => .ok n.toDouble
  | none => .error s!"argument {index} must be a number"

/-- The decimal argument at a place. -/
def decimalArg (args : List Value) (index : Nat) : Except HostFailure Decimal :=
  match args[index]? with
  | some (.number (.decimal d)) => .ok d
  | _ => .error s!"argument {index} must be a decimal"

/-- The argument at a place, as a number of digits after the point. -/
def placesArg (args : List Value) (index : Nat) : Except HostFailure Nat :=
  match args[index]? with
  | some (.number (.integral .int places _)) =>
    if places < 0 then .error "out of range integral type conversion attempted"
    else .ok places.toNat
  | _ => .error "round needs a whole number of places"

/-- A function of one double. -/
def ofDouble (name : String) (f : Float → Float) : Function :=
  ⟨name, [.number .double], .number .double, fun args => do
    return .number (.double (f (← doubleArg args 0)))⟩

/-- A function of two doubles. -/
def ofDoubles (name : String) (f : Float → Float → Float) : Function :=
  ⟨name, [.number .double, .number .double], .number .double, fun args => do
    let a ← doubleArg args 0
    let b ← doubleArg args 1
    return .number (.double (f a b))⟩

/-- Rounding to a whole number, a half to the even one. -/
def round : Function :=
  ⟨"round", [.number .decimal], .number .decimal, fun args => do
    return .ofDecimal ((← decimalArg args 0).roundTo 0)⟩

/-- Rounding to a number of places, a half to the even neighbour. -/
def roundPlaces : Function :=
  ⟨"round", [.number .decimal, .number .int], .number .decimal, fun args => do
    let places ← placesArg args 1
    return .ofDecimal ((← decimalArg args 0).roundTo places)⟩

/-- The logarithm of a number to a base. -/
def logarithm (x base : Float) : Float := x.log / base.log

/-! ## Rules -/

/-- The ratio of a circle's circumference to its diameter. -/
def pi : Float := 3.141592653589793

/-- The function brackets with their patterns and overloads. -/
def functions : List (String × String × List Function) :=
  [("FN_SIN", "[Ss][Ii][Nn]\\(", [ofDouble "sin" Float.sin]),
    ("FN_COS", "[Cc][Oo][Ss]\\(", [ofDouble "cos" Float.cos]),
    ("FN_TAN", "[Tt][Aa][Nn]\\(", [ofDouble "tan" Float.tan]),
    ("FN_SQRT", "[Ss][Qq][Rr][Tt]\\(", [ofDouble "sqrt" Float.sqrt]),
    ("FN_POW", "[Pp][Oo][Ww]\\(", [ofDoubles "pow" Float.pow]),
    ("FN_LOG", "[Ll][Oo][Gg]\\(", [ofDouble "log" Float.log, ofDoubles "log" logarithm]),
    ("FN_ROUND", "[Rr][Oo][Uu][Nn][Dd]\\(", [round, roundPlaces])]

/-- An operator on two operands of a common type. -/
def operator (name pattern : String) (precedence : Int) (op : BinaryOp) : Rule :=
  .binary name pattern precedence fun left right => Refusal.ofExpr (Expr.binary? op left right)

/-- The names of a path. -/
def pathNames (text : String) : List String := text.splitOn "."

/-- The property of the record in scope that a path leads to. -/
def property (text : String) (parameters : List Parameter) : Except Refusal Expr :=
  match parameters with
  | [] => .error (.expr (.unbound text))
  | record :: _ =>
    Refusal.ofExpr ((pathNames text).foldlM Expr.field? (Expr.ofParameter 0 record))

/-- The rules; the earlier of two that match wins, so that a minus before a digit is a sign. -/
def rules : List Rule :=
  [.operand "DECIMAL" "-?\\d+(\\.\\d+)?" fun text =>
      Refusal.ofValue ((Number.ofText text .decimal).map fun n => Expr.ofValue (.number n)),
    .operand "PI" "\\b[Pp][Ii]\\b" fun _ => .ok (Expr.ofValue (.number (.double pi)))] ++
  functions.map (fun (name, pattern, fs) =>
    .functionCall name pattern (fs.map Overload.ofFunction)) ++
  [.bracketOpen "OPEN_BRACKET" "\\(",
    .listDelimiter "COMMA" ",",
    .bracketClose "CLOSE_BRACKET" "\\)" ("OPEN_BRACKET" :: functions.map (·.1)) (some "COMMA"),
    operator "ADD" "\\+" 2 .add,
    operator "SUB" "-" 2 .subtract,
    operator "MUL" "\\*" 1 .multiply,
    operator "DIV" "/" 1 .divide,
    operator "MOD" "%" 1 .modulo,
    .operandIn "PROPERTY_PATH" "[A-Za-z_][A-Za-z0-9_]*(\\.[A-Za-z_][A-Za-z0-9_]*)*" property,
    .ignoring "WHITESPACE" "\\s+"]

set_option maxRecDepth 100000 in
theorem rules_fit : (Language.make? rules).toOption.isSome = true := by decide +kernel

/-- The language of formulas. -/
def language : Language := .ofRules rules rules_fit

/-! ## Formulas -/

/-- An expression made a decimal, over the text that it was built from. -/
def toDecimal (text : String) (body : Expr) : Except ParseError Expr :=
  let whole := Extent.whole text
  match body.convertTo (.number .decimal) with
  | .ok (some converted) =>
    if body.type.numericKind?.isSome then .ok converted
    else whole.fail (.operationInvalid (.expr (.conversion body.type (.number .decimal))))
  | .ok none => whole.fail (.operationInvalid (.expr (.conversion body.type (.number .decimal))))
  | .error e => whole.fail (.operationInvalid (.conversion e))

/-- The formula of a text, over parameters of which the first one is the record of its properties. -/
def compile (text : String) (parameters : List Parameter) : Except ParseError Lambda := do
  let body ← language.parse text parameters
  return ⟨parameters, ← toDecimal text body⟩

/-- The formula of a text without properties. -/
def parse (text : String) : Except ParseError Lambda := compile text []

/-- The formula of a text over a record. -/
def parseOver (text : String) (record : RecordType) : Except ParseError Lambda :=
  compile text [⟨none, record.type⟩]

/-- The decimal that a formula has as its value. -/
def decimalOf : Value → Except EvalError Decimal
  | .number (.decimal d) => .ok d
  | .null => .error (.nullReference .result)
  | other => Value.mismatch (.type (.number .decimal)) other

/-- The value of a formula without properties. -/
def evaluate (text : String) : Except RunError Decimal := do
  let formula ← RunError.ofParse (parse text)
  let value ← RunError.ofEval (formula.invoke [])
  RunError.ofEval (decimalOf value)

end Parlance.Arithmetic
