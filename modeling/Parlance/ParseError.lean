import Parlance.Extent
import Parlance.Grammar.Rule

/-!
# Parse errors

A `ParseError` is a fault with the extent of the text that is responsible for it. `ParseError.message`
words it, given the text.
-/

namespace Parlance

/-- What is wrong with a text. Where an operator, bracket or delimiter lacks its operand or has one too
many, its extent is part of the fault if it is known. -/
inductive Fault where
  | unexpectedToken
  | operandExpected (operator : Option Extent)
  | operandUnexpected (operator : Option Extent)
  | bracketUnmatched
  | delimiterOutsideBrackets
  | argumentCount (expected actual : Nat)
  | argumentType (expected actual : ValueType)
  | overloadNotFound
  | operationInvalid (refusal : Refusal)
  | enumParse (value enumName : String)
  | parameterDuplicate (name : String)
  | collectionExpected
  | accessorUnexpected

/-- A fault and where it is. -/
structure ParseError where
  extent : Extent
  fault : Fault

namespace ParseError

/-- The wording of a parse error in a text. -/
def message (e : ParseError) (text : String) : String :=
  let segment := e.extent.slice text
  match e.fault with
  | .unexpectedToken => s!"unexpected token `{segment}`"
  | .operandExpected _ => "expected an operand"
  | .operandUnexpected _ => s!"unexpected operand `{segment}`"
  | .bracketUnmatched => s!"bracket `{segment}` is never matched"
  | .delimiterOutsideBrackets => s!"list delimiter `{segment}` is not within brackets"
  | .argumentCount expected actual =>
    s!"`{segment}` holds {actual} argument(s) but {expected} were expected"
  | .argumentType expected actual =>
    s!"argument `{segment}` is {actual.print}, expected {expected.print}"
  | .overloadNotFound => s!"no overload accepts the arguments `{segment}`"
  | .operationInvalid refusal => s!"invalid operation `{segment}`: {refusal.message}"
  | .enumParse value enumName => s!"`{value}` is not a member of enum `{enumName}`"
  | .parameterDuplicate name => s!"parameter `{name}` is already declared"
  | .collectionExpected => s!"`{segment}` is not a collection"
  | .accessorUnexpected => s!"accessor `{segment}` must directly follow a collection bracket"

/-- The messages of the errors behind a parse error, the nearest first. -/
def causes (e : ParseError) : List String :=
  match e.fault with
  | .operationInvalid refusal => refusal.message :: refusal.causes
  | _ => []

end ParseError

/-- The error with a fault at an extent. -/
def Extent.fail {α : Type} (extent : Extent) (fault : Fault) : Except ParseError α :=
  .error ⟨extent, fault⟩

/-- A builder's answer, where a refusal makes the operation at an extent invalid. -/
def Extent.checked {α : Type} (extent : Extent) (r : Except Refusal α) : Except ParseError α :=
  r.mapError fun refusal => ⟨extent, .operationInvalid refusal⟩

end Parlance
