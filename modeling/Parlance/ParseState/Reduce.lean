import Parlance.ParseState.Basic

/-!
# Reduction

Reducing an operator takes its operands from the stack and puts back what its builder makes of them.
Operands to its right are all those on top that start after it; operands to its left must start after
the operator that waits below. Brackets and delimiters are not reduced: one that is met here was never
matched.
-/

namespace Parlance

namespace Operand

/-- The operands of a stack that start at or after the end of an extent, the leftmost first, and those
below them. -/
def splitRight (operator : Extent) (operands : List Operand) : List Operand × List Operand :=
  let right := operands.takeWhile (·.extent.rightOf operator)
  (right.reverse, operands.drop right.length)

/-- At most `count` operands of a stack that start at or after a boundary, the leftmost first, and those
below them. -/
def splitLeft (boundary count : Nat) (operands : List Operand) : List Operand × List Operand :=
  let left := (operands.take count).takeWhile (boundary ≤ ·.extent.start)
  (left.reverse, operands.drop left.length)

/-- Operands from the left and from the right in the order of positions. -/
def arrange : List Side → List Operand → List Operand → List Operand
  | [], _, _ => []
  | .left :: sides, o :: left, right => o :: arrange sides left right
  | .left :: sides, [], right => arrange sides [] right
  | .right :: sides, left, o :: right => o :: arrange sides left right
  | .right :: sides, left, [] => arrange sides left []

end Operand

/-- The operands of an operator in the order of its positions, and those that stay on the stack. -/
def takeOperands (operator : Extent) (positions : List Side) (boundary : Nat)
    (operands : List Operand) : Except ParseError (List Operand × List Operand) :=
  let wantedRight := positions.count .right
  let wantedLeft := positions.count .left
  let (right, rest) := Operand.splitRight operator operands
  if wantedRight < right.length then
    (Operand.coverAll (right.drop wantedRight)).fail (.operandUnexpected (some operator))
  else if right.length < wantedRight then
    (Extent.point operator.stop).fail (.operandExpected (some operator))
  else
    let (left, rest) := Operand.splitLeft boundary wantedLeft rest
    if left.length < wantedLeft then
      (Extent.point operator.start).fail (.operandExpected (some operator))
    else .ok (Operand.arrange positions left right, rest)

/-- Where the operator that waits below ends; the start of the text if there is none. -/
def boundaryOf (below : List Activation) : Nat := (below.head?.map (·.extent.stop)).getD 0

/-- Reduces what waited on top of the operators `below`. -/
def reduce (g : Grammar) (top : Activation) (below : List Activation) (operands : List Operand) :
    Except ParseError (List Operand) :=
  match g.kind top.rule with
  | .operator positions _ build => do
    let (args, rest) ← takeOperands top.extent positions (boundaryOf below) operands
    let extent := top.extent.coverAll (args.map Operand.extent)
    let expr ← extent.checked (build top.token.text (args.map Operand.expr))
    return ⟨expr, extent⟩ :: rest
  | .bracketOpen | .functionCall _ | .collectionBracket _ => top.extent.fail .bracketUnmatched
  | .listDelimiter => top.extent.fail .delimiterOutsideBrackets
  | _ => .ok operands

/-- Reduces from the top of a stack of operators while the kinds of their rules allow it. -/
def foldWhile (g : Grammar) (folds : RuleKind → Bool) :
    List Activation → List Operand → Except ParseError (List Activation × List Operand)
  | [], operands => .ok ([], operands)
  | top :: below, operands =>
    if folds (g.kind top.rule) then do
      foldWhile g folds below (← reduce g top below operands)
    else .ok (top :: below, operands)

namespace ParseState

/-- Reduces while the kinds of the rules on top allow it. -/
def foldWhile (g : Grammar) (folds : RuleKind → Bool) (s : ParseState) :
    Except ParseError ParseState := do
  let (operators, operands) ← Parlance.foldWhile g folds s.operators s.operands
  return ⟨s.parameters, operands, operators⟩

end ParseState

end Parlance
