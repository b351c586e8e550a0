import Parlance.ParseState.Bracket

/-!
# Applying tokens

`ParseState.apply` takes one token, `ParseState.finish` takes the end of the text. An operator with a
precedence and an operand to its left first reduces what binds at least as tightly, and also what takes
nothing from its right, which is complete already.
-/

namespace Parlance

/-- Whether an operator that waits gives way to one of a precedence that takes an operand from its
left. -/
def yieldsTo (precedence : Int) (waiting : RuleKind) : Bool :=
  waiting.precedence?.any fun top => top ≤ precedence || !waiting.positions.contains .right

/-- Whether an operator that waits takes nothing from its right. -/
def isComplete (waiting : RuleKind) : Bool :=
  waiting.precedence?.isSome && !waiting.positions.contains .right

/-- The name that the text of an accessor gives: without colons at its end and blanks around it. -/
def accessorName (text : String) : String :=
  Text.trim (String.ofList (text.toList.reverse.dropWhile (· == ':')).reverse)

namespace ParseState

/-- The collection whose bracket waits on top, if nothing stands in the bracket yet. -/
def accessorSource (g : Grammar) (s : ParseState) (t : Token) :
    Except ParseError (Operand × Activation × List Activation) :=
  match s.operators with
  | [] => t.extent.fail .accessorUnexpected
  | top :: below =>
    let isCollection := g.kind top.rule matches .collectionBracket _
    let started := s.operands.head?.any (·.extent.rightOf top.extent)
    if !isCollection || top.slot.isSome || started then t.extent.fail .accessorUnexpected
    else do
      let (source, _) ← takeSource top.extent s.operands
      return (source, top, below)

/-- Names the element of the collection whose bracket has just opened. -/
def declareAccessor (g : Grammar) (s : ParseState) (t : Token) : Except ParseError ParseState := do
  let (source, top, below) ← s.accessorSource g t
  match source.expr.type.element? with
  | none => source.extent.fail .collectionExpected
  | some element =>
    let name := accessorName t.text
    if s.parameters.any fun p => p.name.any (Text.eqIgnoreCase · name) then
      t.extent.fail (.parameterDuplicate name)
    else
      return ⟨s.parameters ++ [⟨some name, element⟩], s.operands,
        { top with slot := some s.parameters.length } :: below⟩

/-- Takes one token. -/
def apply (g : Grammar) (s : ParseState) (t : Token) : Except ParseError ParseState :=
  match g.kind t.rule with
  | .terminal => .ok s
  | .operand build => do
    let expr ← t.extent.checked (build t.text s.parameters)
    return s.pushOperand ⟨expr, t.extent⟩
  | .operator positions precedence _ => do
    let s ← match precedence with
      | some precedence =>
        if positions.contains .left then s.foldWhile g (yieldsTo precedence) else .ok s
      | none => .ok s
    return s.await t
  | .collectionBracket _ => do
    let s ← s.foldWhile g isComplete
    return s.await t
  | .bracketOpen | .functionCall _ | .listDelimiter => .ok (s.await t)
  | .collectionAccessor => s.declareAccessor g t
  | .bracketClose _ _ => s.close g t

/-- Reduces everything that waits; exactly one operand must remain. -/
def finish (g : Grammar) (s : ParseState) : Except ParseError Expr := do
  let s ← s.foldWhile g fun _ => true
  match s.operands with
  | [] => (Extent.point 0).fail (.operandExpected none)
  | [operand] => return operand.expr
  | top :: _ => top.extent.fail (.operandUnexpected none)

/-- Takes tokens in order. -/
def applyAll (g : Grammar) : ParseState → List Token → Except ParseError ParseState
  | s, [] => .ok s
  | s, t :: ts => do applyAll g (← s.apply g t) ts

end ParseState

end Parlance
