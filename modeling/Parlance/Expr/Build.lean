import Parlance.Expr.Basic

/-!
# Checked construction of expressions

Each constructor here refuses operands of the wrong types with an `ExprError`, so that a tree built
from them is well typed. `Expr.converted` does not ask whether its conversion makes sense.
-/

namespace Parlance

/-- Why an expression cannot be built. -/
inductive ExprError where
  | binaryTypes (op : BinaryOp) (left right : ValueType)
  | unaryType (op : UnaryOp) (operand : ValueType)
  | notARecord (type : ValueType) (field : String)
  | unknownField (record field : String)
  | arity (function : String) (expected actual : Nat)
  | argumentType (function : String) (index : Nat) (expected actual : ValueType)
  | notACollection (type : ValueType)
  | predicateType (type : ValueType)
  | missingPredicate (op : CollectionOp)
  | conversion (source target : ValueType)
  | operandCount (expected actual : Nat)
  | unbound (name : String)
  deriving DecidableEq

/-- The wording of an expression error. -/
def ExprError.message : ExprError → String
  | .binaryTypes op left right =>
    s!"operator `{op.symbol}` cannot be applied to {left.print} and {right.print}"
  | .unaryType op operand => s!"operator `{op.symbol}` cannot be applied to {operand.print}"
  | .notARecord type field => s!"{type.print} is not a record, so it has no field `{field}`"
  | .unknownField record field => s!"`{record}` has no field `{field}`"
  | .arity function expected actual => s!"`{function}` takes {expected} argument(s), {actual} given"
  | .argumentType function index expected actual =>
    s!"argument {index} of `{function}` must be {expected.print}, found {actual.print}"
  | .notACollection type => s!"{type.print} is not a collection"
  | .predicateType type => s!"collection predicates must be bool, found {type.print}"
  | .missingPredicate op => s!"`{op.name}` needs a predicate"
  | .conversion source target => s!"cannot convert {source.print} to {target.print}"
  | .operandCount expected actual => s!"operator received {actual} operand(s), expected {expected}"
  | .unbound name => s!"`{name}` needs a bound parameter to resolve against"

namespace Expr

/-- The null constant of a type that admits null. -/
def typedNull? (type : ValueType) : Except ExprError Expr :=
  if type.acceptsNull then .ok (.constant .null type) else .error (.conversion .null type)

/-- The access to a field of a record, by the name that `RecordType.field?` resolves. -/
def field? (target : Expr) (name : String) : Except ExprError Expr :=
  match target.type.recordType? with
  | none => .error (.notARecord target.type name)
  | some record =>
    match record.field? name with
    | none => .error (.unknownField record.name name)
    | some info => .ok (.field target info.index info.name info.type)

/-- The operand converted to a type: unchanged if it has that type, retyped if it is null and the type
admits that. -/
def converted (operand : Expr) (type : ValueType) : Expr :=
  if operand.type = type then operand
  else if operand.isNull && type.acceptsNull then .constant .null type
  else .convert operand type

/-- Whether an operator applies to an operand of a type. -/
def unaryAccepts (op : UnaryOp) (type : ValueType) : Bool :=
  match op with
  | .negate => type.numericKind?.any fun kind => kind.isArithmetic && !kind.isUnsigned
  | .not => type = .bool

/-- An operator applied to one operand; the result has the operand's type. -/
def unary? (op : UnaryOp) (operand : Expr) : Except ExprError Expr :=
  if unaryAccepts op operand.type then .ok (.unary op operand operand.type)
  else .error (.unaryType op operand.type)

/-- The type of an operation on two operands of one type, if the operator applies to them. -/
def binaryType? (op : BinaryOp) (type : ValueType) : Option ValueType :=
  if op.isArithmetic then
    if type.numericKind?.any NumericKind.isArithmetic then some type else none
  else if op.isOrdering then
    if type.numericKind?.isSome || type.isTemporal then some .bool else none
  else if op.isEquality then
    if type.underlying matches .collection _ then none else some .bool
  else if type = .bool then some .bool
  else none

/-- An operator applied to two operands, which must have one type. -/
def binary? (op : BinaryOp) (left right : Expr) : Except ExprError Expr :=
  match if left.type = right.type then binaryType? op left.type else none with
  | some type => .ok (.binary op left right type)
  | none => .error (.binaryTypes op left.type right.type)

/-- The first argument whose type is not the declared one, with its place. -/
def firstMistyped? (function : String) (index : Nat) :
    List ValueType → List Expr → Option ExprError
  | expected :: types, arg :: args =>
    if arg.type = expected then firstMistyped? function (index + 1) types args
    else some (.argumentType function index expected arg.type)
  | _, _ => none

/-- The call of a host function with arguments of exactly the declared types. -/
def call? (function : Function) (args : List Expr) : Except ExprError Expr :=
  if function.parameters.length ≠ args.length then
    .error (.arity function.name function.parameters.length args.length)
  else
    match firstMistyped? function.name 0 function.parameters args with
    | some error => .error error
    | none => .ok (.call function args)

/-- A predicate over a collection; the element is bound to `slot` while the body runs. Only `any` may
lack a body. -/
def collection? (op : CollectionOp) (source : Expr) (slot : Option Nat) (body : Option Expr) :
    Except ExprError Expr :=
  if source.type.element?.isNone then .error (.notACollection source.type)
  else
    match body with
    | some body =>
      if body.type = .bool then .ok (.collection op source slot (some body))
      else .error (.predicateType body.type)
    | none =>
      if op = .all then .error (.missingPredicate op) else .ok (.collection op source slot none)

end Expr

end Parlance
