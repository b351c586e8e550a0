import Parlance.Decimal.Arithmetic
import Parlance.Decimal.Division
import Parlance.Operator
import Parlance.Value.Json

/-!
# Operations on values

What the operators and conversions of expressions do with values, and the errors of evaluation. Whole
and decimal arithmetic is checked, floating arithmetic follows its own rules. Null goes through
arithmetic, makes every comparison by order false and equals only null.
-/

namespace Parlance

/-! ## Errors -/

/-- What would have been the right value. -/
inductive Expectation where
  | type (type : ValueType)
  | number
  | numbersOrDates
  | integralNumber
  | arithmeticOperator
  | record
  | recordWithField (name : String)
  | collection
  deriving DecidableEq

/-- The wording of an expectation. -/
def Expectation.message : Expectation → String
  | type t => t.print
  | number => "a number"
  | numbersOrDates => "numbers or dates"
  | integralNumber => "an integral number"
  | arithmeticOperator => "an arithmetic operator"
  | record => "a record"
  | recordWithField name => s!"a record with field `{name}`"
  | collection => "a collection"

/-- What null cannot be used for. -/
inductive NullUse where
  | readField | convert | enumerate | result
  deriving DecidableEq, Repr

/-- The wording of a use. -/
def NullUse.message : NullUse → String
  | readField => "read a field of"
  | convert => "convert"
  | enumerate => "enumerate"
  | result => "return"

/-- Why an evaluation fails; a panic ends not the evaluation alone but the whole program. -/
inductive EvalError where
  | divisionByZero
  | overflow (op : BinaryOp) (kind : NumericKind)
  | nullReference (use : NullUse)
  | typeMismatch (expected : Expectation) (found : Value)
  | unboundParameter (slot : Nat)
  | arity (expected actual : Nat)
  | function (name cause : String)
  | conversion (error : ValueError)
  | panic (text : String)

namespace EvalError

/-- The wording of an evaluation error. -/
def message : EvalError → String
  | divisionByZero => "division by zero"
  | overflow op kind => s!"`{op.symbol}` overflowed {kind.name}"
  | nullReference use => s!"cannot {use.message} a null value"
  | typeMismatch expected found => s!"expected {expected.message}, found {found.print}"
  | unboundParameter slot => s!"parameter ${slot} is not bound"
  | arity expected actual => s!"expected {expected} argument(s), {actual} given"
  | function name _ => s!"function `{name}` failed"
  | conversion error => error.message
  | panic text => text

/-- The messages of the errors behind this one, the nearest first. -/
def causes : EvalError → List String
  | function _ cause => [cause]
  | _ => []

end EvalError

/-! ## Operations on values -/

/-- Adapts a value error. -/
def EvalError.ofValue {α : Type} : Except ValueError α → Except EvalError α
  | .ok a => .ok a
  | .error e => .error (.conversion e)

namespace Value

/-- The error that a value is not what was expected. -/
def mismatch {α : Type} (expected : Expectation) (found : Value) : Except EvalError α :=
  .error (.typeMismatch expected found)

/-- The enum value with the value of a whole number of 64 bits. -/
def numberToEnum (descriptor : EnumType) (n : Number) : Except EvalError Value :=
  match n.toInt? with
  | some i =>
    if NumericKind.long.holds i then .ok (enum descriptor (Int64.ofInt i))
    else mismatch (.type (.enum descriptor)) (number n)
  | none => mismatch (.type (.enum descriptor)) (number n)

/-- The number of an enum value in a kind. -/
def enumToNumber (value : Int64) (kind : NumericKind) : Except EvalError Value :=
  match Number.ofInt? .long value.toInt with
  | some n => EvalError.ofValue ((n.convert kind).map number)
  | none => mismatch .integralNumber null

/-- A value of another form of the same type, or of the same type. -/
def retype (v : Value) (target : ValueType) : Except EvalError Value :=
  match v, target with
  | list _, .collection _ => .ok v
  | _, _ => if v.type.underlying = target then .ok v else mismatch (.type target) v

/-- The value converted to a type. -/
def convert (v : Value) (type : ValueType) : Except EvalError Value :=
  match v, type.underlying with
  | null, _ => if type.acceptsNull then .ok null else .error (.nullReference .convert)
  | number n, .number kind => EvalError.ofValue ((n.convert kind).map number)
  | number n, .enum descriptor => numberToEnum descriptor n
  | enum _ value, .number kind => enumToNumber value kind
  | enum _ value, .enum descriptor => .ok (enum descriptor value)
  | dateTime m, .dateTimeOffset => .ok (dateTimeOffset (.ofUniversal m))
  | v, target => v.retype target

end Value

/-! ## Arithmetic -/

/-- Arithmetic on whole numbers; division rounds toward zero. -/
def BinaryOp.onInt? : BinaryOp → Int → Int → Option Int
  | add, a, b => some (a + b)
  | subtract, a, b => some (a - b)
  | multiply, a, b => some (a * b)
  | divide, a, b => some (a.tdiv b)
  | modulo, a, b => some (a.tmod b)
  | _, _, _ => none

/-- Arithmetic on doubles. -/
def BinaryOp.onDouble? : BinaryOp → Float → Float → Option Float
  | add, a, b => some (a + b)
  | subtract, a, b => some (a - b)
  | multiply, a, b => some (a * b)
  | divide, a, b => some (a / b)
  | modulo, a, b => some (Binary.remainder a b)
  | _, _, _ => none

/-- Whether an operator divides. -/
def BinaryOp.divides (op : BinaryOp) : Bool := op matches divide | modulo

namespace Number

/-- Arithmetic on decimals; `none` of the operator, then `none` of the result. -/
def decimalOp? : BinaryOp → Decimal → Decimal → Option (Option Decimal)
  | .add, a, b => some (a.add? b)
  | .subtract, a, b => some (a.sub? b)
  | .multiply, a, b => some (a.mul? b)
  | .divide, a, b => some (a.div? b)
  | .modulo, a, b => some (a.rem? b)
  | _, _, _ => none

/-- An arithmetic operation on two numbers of one kind. -/
def arithmetic (op : BinaryOp) (a b : Number) : Except EvalError Number :=
  let notArithmetic := Value.mismatch .arithmeticOperator (.number a)
  if b.kind ≠ a.kind then Value.mismatch (.type (.number a.kind)) (.number b)
  else
    match a, b with
    | decimal x, decimal y =>
      if op.divides && y.isZero then .error .divisionByZero
      else
        match decimalOp? op x y with
        | some (some d) => .ok (decimal d)
        | some none => .error (.overflow op .decimal)
        | none => notArithmetic
    | float x, b =>
      match op.onDouble? x.toFloat b.toDouble with
      | some r => .ok (float r.toFloat32)
      | none => notArithmetic
    | double x, b =>
      match op.onDouble? x b.toDouble with
      | some r => .ok (double r)
      | none => notArithmetic
    | integral kind x _, integral _ y _ =>
      if op.divides && y = 0 then .error .divisionByZero
      else
        match op.onInt? x y with
        | some r =>
          match ofInt? kind r with
          | some n => .ok n
          | none => .error (.overflow op kind)
        | none => notArithmetic
    | a, _ => Value.mismatch .integralNumber (.number a)

end Number

namespace Value

/-- An operator on one value. -/
def unary : UnaryOp → Value → Except EvalError Value
  | _, null => .ok null
  | .not, bool b => .ok (bool !b)
  | .negate, number n => (Number.arithmetic .subtract (.zeroOf n.kind) n).map number
  | .not, other => mismatch (.type .bool) other
  | .negate, other => mismatch .number other

/-- Equality of values as expressions see it: numbers by value whatever their kinds, enum values by
their numbers. -/
def equals : Value → Value → Bool
  | number a, number b => a.compare? b == some .eq
  | enum _ a, enum _ b => a == b
  | a, b => a.same b

/-- Whether an order satisfies a comparison operator. -/
def satisfies (op : BinaryOp) (o : Ordering) : Bool :=
  match op with
  | .greater => o == .gt
  | .greaterOrEqual => o != .lt
  | .less => o == .lt
  | _ => o != .gt

/-- The order of two numbers or of two moments of one type; `none` inside if they have none. -/
def order (a b : Value) : Except EvalError (Option Ordering) :=
  match a, b with
  | number a, number b => .ok (a.compare? b)
  | dateTime a, dateTime b => .ok (some (a.compare b.toWallTime))
  | dateTimeOffset a, dateTimeOffset b => .ok (some (a.compare b))
  | a, _ => mismatch .numbersOrDates a

/-- A strict operator on two values. -/
def binary (op : BinaryOp) (a b : Value) : Except EvalError Value :=
  if op.isEquality then .ok (bool (equals a b == (op == .equal)))
  else if op.isOrdering then
    if a.isNull || b.isNull then .ok (bool false)
    else (order a b).map fun o => bool (o.any (satisfies op))
  else if a.isNull || b.isNull then .ok null
  else
    match a, b with
    | number a, number b => (Number.arithmetic op a b).map number
    | a, _ => mismatch .number a

/-- The truth value that a connective or a predicate needs. -/
def truth (v : Value) : Except EvalError Bool :=
  match v.toBool? with
  | some b => .ok b
  | none => mismatch (.type .bool) v

/-- The field of a record. -/
def fieldAt (v : Value) (index : Nat) (name : String) : Except EvalError Value :=
  match v with
  | record type fields =>
    match fields[index]? with
    | some field => .ok field
    | none => mismatch (.recordWithField name) (record type fields)
  | null => .error (.nullReference .readField)
  | other => mismatch .record other

/-- The elements of a collection. -/
def elements (v : Value) : Except EvalError (List Value) :=
  match v with
  | list items => .ok items
  | null => .error (.nullReference .enumerate)
  | other => mismatch .collection other

end Value

end Parlance
