import Parlance.ParseState.Reduce

/-!
# Brackets

A close bracket unwinds the operators down to a bracket that it closes. Operators on the way are
reduced, and each delimiter takes the operand after it. What the bracket holds is then its one operand,
the arguments of a function, or the predicate over a collection.
-/

namespace Parlance

/-! ## Calls -/

/-- An argument that no conversion takes to its declared type. -/
structure Mistyped where
  operand : Operand
  expected : ValueType

/-- Arguments converted to declared types, or the first one without a conversion. A constant that is no
member of a declared enum is an error, not a missing conversion. -/
def convertArgs : List Operand → List ValueType → Except ParseError (Except Mistyped (List Expr))
  | operand :: operands, type :: types =>
    match operand.expr.convertTo type with
    | .ok (some expr) => do
      return (← convertArgs operands types).map (expr :: ·)
    | .ok none => .ok (.error ⟨operand, type⟩)
    | .error (.enumParse value enumName) => operand.extent.fail (.enumParse value enumName)
    | .error other => operand.extent.fail (.operationInvalid (.conversion other))
  | _, _ => .ok (.ok [])

/-- Arguments converted for an overload. -/
def Overload.convert (o : Overload) (contents : List Operand) :
    Except ParseError (Except Mistyped (List Expr)) :=
  match o.parameters with
  | some types => convertArgs contents types
  | none => .ok (.ok (contents.map Operand.expr))

/-- The overloads that take a number of arguments: those with that many parameters before those that
take any number, else in their order. -/
def Overload.candidates (overloads : List Overload) (count : Nat) : List Overload :=
  let accepting := overloads.filter (·.accepts count)
  accepting.filter (·.arity?.isSome) ++ accepting.filter (·.arity?.isNone)

/-- The call of the first candidate whose parameters the arguments convert to. -/
def callFirst (contents : List Operand) (opening args : Extent) (single : Bool) :
    List Overload → Except ParseError Expr
  | [] => args.fail .overloadNotFound
  | o :: candidates => do
    match ← o.convert contents with
    | .ok exprs => (opening.cover args).checked (o.build exprs)
    | .error m =>
      if single then m.operand.extent.fail (.argumentType m.expected m.operand.expr.type)
      else callFirst contents opening args single candidates

/-- The call of a function with the contents of its bracket. -/
def callFunction (overloads : List Overload) (contents : List Operand) (opening close : Extent) :
    Except ParseError Operand := do
  let args := if contents.isEmpty then opening.gap close else Operand.coverAll contents
  match Overload.candidates overloads contents.length with
  | [] =>
    let expected := ((overloads.head?.bind Overload.arity?).getD contents.length)
    args.fail (.argumentCount expected contents.length)
  | candidates =>
    let expr ← callFirst contents opening args (candidates.length == 1) candidates
    return ⟨expr, (opening.cover args).cover close⟩

/-! ## Contents -/

/-- Exactly one operand between brackets. -/
def singleContent (contents : List Operand) (opening close : Extent) : Except ParseError Operand :=
  match contents with
  | [] => (opening.gap close).fail (.operandExpected (some opening))
  | [inner] => .ok ⟨inner.expr, (opening.cover inner.extent).cover close⟩
  | _ :: others => (Operand.coverAll others).fail (.operandUnexpected (some opening))

/-- The operand on top, if it ends before an extent starts, and those below it. -/
def takeSource (opening : Extent) : List Operand → Except ParseError (Operand × List Operand)
  | operand :: operands =>
    if operand.extent.leftOf opening then .ok (operand, operands)
    else (Extent.point opening.start).fail (.operandExpected (some opening))
  | [] => (Extent.point opening.start).fail (.operandExpected (some opening))

/-- What a close bracket does with the bracket it closes and its contents. -/
def ParseState.applyContents (g : Grammar) (s : ParseState) (top : Activation)
    (contents : List Operand) (close : Extent) : Except ParseError ParseState :=
  match g.kind top.rule with
  | .functionCall overloads => do
    return s.pushOperand (← callFunction overloads contents top.extent close)
  | .collectionBracket build => do
    if let _ :: other :: others := contents then
      (Operand.coverAll (other :: others)).fail (.operandUnexpected (some top.extent))
    let (source, operands) ← takeSource top.extent s.operands
    if source.expr.type.element?.isNone then source.extent.fail .collectionExpected
    let parameter := top.slot.bind fun slot => s.parameters[slot]?.map (slot, ·)
    let parameters := match top.slot with
      | some slot => s.parameters.take slot
      | none => s.parameters
    let extent := (source.extent.cover top.extent).cover close
    let body := ⟨parameter, contents.head?.map Operand.expr⟩
    let expr ← extent.checked (build top.token.text source.expr body)
    return ⟨parameters, ⟨expr, extent⟩ :: operands, s.operators⟩
  | _ => do
    return s.pushOperand (← singleContent contents top.extent close)

/-! ## Closing -/

/-- What has been unwound: the bracket that is closed, its contents, and the stacks below. -/
structure Unwound where
  top : Activation
  contents : List Operand
  operators : List Activation
  operands : List Operand

/-- The operand on top, if it lies between two extents, and those below it. -/
def takeBetween? (a b : Extent) : List Operand → Option (Operand × List Operand)
  | operand :: operands => if operand.extent.isBetween a b then some (operand, operands) else none
  | [] => none

/-- Unwinds operators down to a bracket that `links` closes. `previous` is the close bracket or the
delimiter met last, `separated` holds once there was one. -/
def unwind (g : Grammar) (links : BracketLinks) (close previous : Extent) (separated : Bool)
    (contents : List Operand) :
    List Activation → List Operand → Except ParseError Unwound
  | [], _ => close.fail .bracketUnmatched
  | top :: below, operands =>
    let missing : Except ParseError Unwound :=
      (top.extent.gap previous).fail (.operandExpected (some top.extent))
    if links.opens.contains top.rule then
      match takeBetween? top.extent previous operands with
      | some (operand, rest) => .ok ⟨top, operand :: contents, below, rest⟩
      | none => if separated then missing else .ok ⟨top, contents, below, operands⟩
    else if links.delimiter = some top.rule then
      match takeBetween? top.extent previous operands with
      | some (operand, rest) =>
        unwind g links close top.extent true (operand :: contents) below rest
      | none => missing
    else do
      unwind g links close previous separated contents below (← reduce g top below operands)

/-- Closes a bracket. -/
def ParseState.close (g : Grammar) (s : ParseState) (t : Token) : Except ParseError ParseState := do
  let u ← unwind g (g.linksOf t.rule) t.extent t.extent false [] s.operators s.operands
  ParseState.applyContents g ⟨s.parameters, u.operands, u.operators⟩ u.top u.contents t.extent

end Parlance
