import Parlance.Expr.Build
import Parlance.Expr.Eval

/-!
# Implicit conversions

Operands are brought to a common type before an operator joins them. `ValueType.common?` is that type:
the same type, the nullable form of either side, the first common widening of two kinds of numbers, or
moments with an offset. Enums take integral numbers and constant strings, which are evaluated at once.
A `Pairing` is the outcome for two operands; one that is not `done` has the operands as they were.
-/

namespace Parlance

/-- The type that both types convert to. -/
def ValueType.common? (a b : ValueType) : Option ValueType :=
  if a = b then some a
  else if a = .null then some b.orNull
  else if b = .null then some a.orNull
  else if a.underlying = b.underlying then some a.underlying.orNull
  else
    let joined : Option ValueType := match a.underlying, b.underlying with
      | .dateTime, .dateTimeOffset | .dateTimeOffset, .dateTime => some .dateTimeOffset
      | .number k, .number l => (k.common? l).map .number
      | _, _ => none
    joined.map fun t => if a.isNullable || b.isNullable then t.orNull else t

/-- Why a constant cannot become an enum value. -/
inductive ConversionError where
  | enumParse (value enumName : String)
  | notSupported (enumName : String)
  | evaluation (error : EvalError)

namespace ConversionError

/-- The wording of a conversion error. -/
def message : ConversionError → String
  | enumParse value enumName => s!"`{value}` is not a member of enum `{enumName}`"
  | notSupported enumName => s!"only constant strings can be converted to enum `{enumName}`"
  | evaluation _ => "the constant operand could not be evaluated"

/-- The messages of the errors behind this one, the nearest first. -/
def causes : ConversionError → List String
  | evaluation error => error.message :: error.causes
  | _ => []

end ConversionError

/-! ## Pairs of operands -/

/-- Two operands after an attempt to give them one type. -/
structure Pairing where
  done : Bool
  left : Expr
  right : Expr

namespace Pairing

/-- Converts both operands to their common type. -/
def implicit (left right : Expr) : Pairing :=
  if left.type = right.type then ⟨true, left, right⟩
  else
    match left.type.common? right.type with
    | some type => ⟨true, left.converted type, right.converted type⟩
    | none => ⟨false, left, right⟩

/-- The side of a pair that has an enum type when the other one has none. -/
inductive EnumSide where
  | left (descriptor : EnumType)
  | right (descriptor : EnumType)

/-- Which side of a pair, and only it, has an enum type. -/
def enumSide? (left right : Expr) : Option EnumSide :=
  match left.type.enumType?, right.type.enumType? with
  | some descriptor, none => some (.left descriptor)
  | none, some descriptor => some (.right descriptor)
  | _, _ => none

/-- An operand of an integral number type taken as an enum; nullable if the operand or the enum is. -/
def numberAsEnum? (number : Expr) (enumType : ValueType) : Option Expr :=
  match number.type.numericKind? with
  | some kind =>
    if kind.isEnumCompatible then
      some (number.converted (if number.type.isNullable then enumType.orNull else enumType))
    else none
  | none => none

/-- Takes an integral operand as the enum of the other side. -/
def enumNumber (left right : Expr) : Pairing :=
  if left.type = right.type then ⟨true, left, right⟩
  else
    match enumSide? left right with
    | some (.left _) =>
      match numberAsEnum? right left.type with
      | some right => implicit left right
      | none => ⟨false, left, right⟩
    | some (.right _) =>
      match numberAsEnum? left right.type with
      | some left => implicit left right
      | none => ⟨false, left, right⟩
    | none => ⟨false, left, right⟩

end Pairing

/-- A closed string expression as a constant of an enum; a null string is a null of the enum. -/
def Expr.enumConstant (string : Expr) (descriptor : EnumType) (target : ValueType)
    (ignoreCase : Bool) : Except ConversionError Expr :=
  if !string.isClosed then .error (.notSupported descriptor.name)
  else
    match string.value [] with
    | .error e => .error (.evaluation e)
    | .ok (.string text) =>
      match descriptor.valueOf? ignoreCase text with
      | some value => .ok ((Expr.ofValue (.enum descriptor value)).converted target)
      | none => .error (.enumParse text descriptor.name)
    | .ok .null => .ok (Expr.null.converted target.orNull)
    | .ok other => .error (.enumParse other.print descriptor.name)

/-- Takes a constant string operand as a member of the enum of the other side. -/
def Pairing.enumString (ignoreCase : Bool) (left right : Expr) : Except ConversionError Pairing :=
  if left.type = right.type then .ok ⟨true, left, right⟩
  else
    match enumSide? left right with
    | some (.left descriptor) =>
      if right.type.underlying = .string then
        (right.enumConstant descriptor left.type ignoreCase).map (implicit left)
      else .ok ⟨false, left, right⟩
    | some (.right descriptor) =>
      if left.type.underlying = .string then
        (left.enumConstant descriptor right.type ignoreCase).map (implicit · right)
      else .ok ⟨false, left, right⟩
    | none => .ok ⟨false, left, right⟩

/-! ## Single operands -/

/-- Whether values of one type may be cast to another by an argument conversion. -/
def ValueType.casts (source target : ValueType) : Bool :=
  match source.underlying, target.underlying with
  | .number _, .number _ | .enum _, .number _ | .dateTime, .dateTimeOffset => true
  | .number kind, .enum _ => kind.isEnumCompatible
  | a, b => a = b

namespace Expr

/-- An argument converted to a declared type: every implicit conversion, casts between numbers, and
between numbers and enums. `none` means that there is no conversion. -/
def convertTo (e : Expr) (target : ValueType) : Except ConversionError (Option Expr) :=
  if e.type = target then .ok (some e)
  else if e.isNull then .ok (if target.acceptsNull then some (e.converted target) else none)
  else if e.type.orNull = target then .ok (some (e.converted target))
  else
    match e.type.underlying, target.underlying with
    | .string, .enum descriptor => (e.enumConstant descriptor target true).map some
    | _, _ => .ok (if e.type.casts target then some (e.converted target) else none)

/-- The expression as a truth value: itself if it is boolean, else its comparison with true. -/
def toBoolean? (e : Expr) : Option Expr :=
  if e.type = .bool then some e
  else
    let pair := Pairing.implicit e (.ofValue (.bool true))
    if pair.done then (binary? .equal pair.left pair.right).toOption else none

end Expr

end Parlance
