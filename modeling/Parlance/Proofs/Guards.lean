import Parlance.Language.Basic
import Parlance.Span

/-!
# A parse with guards

The parse again, over spans: each of them carries its text, and every step is guarded that would stop a
program which keeps its texts and lists in memory. Spans are compared and merged only if they are over
one text, a span has its ends in order and within its text, a text is cut only between characters, and a
rule or its links are looked up only inside the lists. A guard that does not hold makes the parse panic,
which is no error (`Attempt`).

Tokens, operands and activations have no text of their own here: it is read from the text of the span
when a builder needs it, and what the builder cuts out of it is guarded as well (`Setting.cuts`).
-/

namespace Parlance

/-- What stops a program at once. -/
inductive Panic where
  | sources (a b : Span)
  | bounds (source : String) (start stop : Nat)
  | cut (source : String) (start stop : Nat)
  | index (place length : Nat)

/-- A fault and the span that it is reported at. -/
structure Failure where
  span : Span
  fault : Fault

/-- A computation that may fail and may panic. -/
inductive Attempt (α : Type) where
  | done (a : α)
  | failed (failure : Failure)
  | panicked (panic : Panic)

namespace Attempt

/-- Goes on with a value. -/
def andThen {α β : Type} (x : Attempt α) (f : α → Attempt β) : Attempt β :=
  match x with
  | done a => f a
  | failed failure => .failed failure
  | panicked panic => .panicked panic

instance : Monad Attempt where
  pure := done
  bind := andThen

end Attempt

/-! ## Spans -/

namespace Span

/-- The span from `start` to `stop`, whose ends must be in order and within the text. -/
def within (source : String) (start stop : Nat) : Attempt Span :=
  if start ≤ stop && stop ≤ Text.byteLength source.toList then .done ⟨source, ⟨start, stop⟩⟩
  else .panicked (.bounds source start stop)

/-- Two spans must be over one text. -/
def together (a b : Span) : Attempt Unit :=
  if a.sameSource b then .done () else .panicked (.sources a b)

/-- The empty span at an offset of the same text. -/
def pointAt (s : Span) (offset : Nat) : Attempt Span := within s.source offset offset

/-- The least span that covers both. -/
def merge (a b : Span) : Attempt Span := do
  together a b
  within a.source (min a.extent.start b.extent.start) (max a.extent.stop b.extent.stop)

/-- The least span that covers `first` and all of `rest`. -/
def mergeAll (first : Span) (rest : List Span) : Attempt Span := rest.foldlM merge first

/-- The least span that covers some spans; for none, that of an empty text. -/
def encompass : List Span → Attempt Span
  | [] => .done (.whole "")
  | first :: rest => mergeAll first rest

/-- What lies between the end of `a` and the start of `b`. -/
def gapTo (a b : Span) : Attempt Span := do
  together a b
  within a.source a.extent.stop (max b.extent.start a.extent.stop)

/-- Whether `a` starts at or after the end of `b`. -/
def isAfter (a b : Span) : Attempt Bool := do
  together a b
  return a.extent.rightOf b.extent

/-- Whether `a` ends at or before the start of `b`. -/
def isBefore (a b : Span) : Attempt Bool := do
  together a b
  return a.extent.leftOf b.extent

/-- Whether `s` lies in the gap between `a` and `b`. -/
def liesBetween (s a b : Span) : Attempt Bool := do
  together s a
  together s b
  return s.extent.isBetween a.extent b.extent

/-- The covered text, whose ends must fall between characters. -/
def read (s : Span) : Attempt String :=
  if s.extent.Within s.source then .done s.text
  else .panicked (.cut s.source s.extent.start s.extent.stop)

/-- Fails with a fault. -/
def fail {α : Type} (s : Span) (fault : Fault) : Attempt α := .failed ⟨s, fault⟩

end Span

namespace Guarded

/-! ## States -/

/-- A token: the place of its rule, and its span. -/
structure Token where
  rule : Nat
  span : Span

/-- An expression and the span that it was built from. -/
structure Operand where
  expr : Expr
  span : Span

/-- A token that waits, with the slot of the element that a collection bracket has named. -/
structure Activation where
  token : Token
  slot : Option Nat

namespace Activation

/-- The place of the rule. -/
abbrev rule (a : Activation) : Nat := a.token.rule

/-- The span of the token. -/
abbrev span (a : Activation) : Span := a.token.span

end Activation

/-- The parameters in scope and the two stacks. -/
structure State where
  parameters : List Parameter
  operands : List Operand
  operators : List Activation

/-- The rules with the links of their close brackets, and the extents that the builder of a rule cuts out
of the text of a token, by the name of the rule. -/
structure Setting where
  grammar : Grammar
  cuts : String → String → List Extent

/-- An element of a list, whose place must be inside. -/
def lookup {α : Type} (xs : List α) (place : Nat) : Attempt α :=
  match xs[place]? with
  | some x => .done x
  | none => .panicked (.index place xs.length)

namespace Setting

/-- The rule at a place. -/
def ruleAt (w : Setting) (place : Nat) : Attempt Rule := lookup w.grammar.rules place

/-- The kind of the rule at a place. -/
def kindAt (w : Setting) (place : Nat) : Attempt RuleKind := do return (← w.ruleAt place).kind

/-- The links of the rule at a place. -/
def linksAt (w : Setting) (place : Nat) : Attempt BracketLinks := do
  return (← lookup w.grammar.links place).getD ⟨[], none⟩

/-- The text of a token for the builder of its rule, which cuts it only between characters. -/
def textFor (w : Setting) (t : Token) : Attempt String := do
  let rule ← w.ruleAt t.rule
  let text ← t.span.read
  match (w.cuts rule.name text).find? fun e => !decide (e.Within text) with
  | some e => .panicked (.cut text e.start e.stop)
  | none => return text

end Setting

/-- A builder's answer, where a refusal makes the operation at a span invalid. -/
def checked {α : Type} (span : Span) : Except Refusal α → Attempt α
  | .ok a => .done a
  | .error refusal => span.fail (.operationInvalid refusal)

/-! ## Reduction -/

/-- The operands on top that start at or after the end of a span, the leftmost first, and those below. -/
def splitRight (operator : Span) : List Operand → Attempt (List Operand × List Operand)
  | [] => .done ([], [])
  | o :: operands => do
    if ← o.span.isAfter operator then
      let (right, rest) ← splitRight operator operands
      return (right ++ [o], rest)
    else return ([], o :: operands)

/-- At most `count` operands on top that start at or after a boundary, the leftmost first, and those
below. -/
def splitLeft (boundary : Nat) : Nat → List Operand → List Operand × List Operand
  | count + 1, o :: operands =>
    if o.span.rightOfIndex boundary then
      let (left, rest) := splitLeft boundary count operands
      (left ++ [o], rest)
    else ([], o :: operands)
  | _, operands => ([], operands)

/-- Operands from the left and from the right in the order of positions. -/
def arrange : List Side → List Operand → List Operand → List Operand
  | [], _, _ => []
  | .left :: sides, o :: left, right => o :: arrange sides left right
  | .left :: sides, [], right => arrange sides [] right
  | .right :: sides, left, o :: right => o :: arrange sides left right
  | .right :: sides, left, [] => arrange sides left []

/-- The operands of an operator in the order of its positions, and those that stay on the stack. -/
def takeOperands (operator : Span) (positions : List Side) (boundary : Nat)
    (operands : List Operand) : Attempt (List Operand × List Operand) := do
  let wantedRight := positions.count .right
  let wantedLeft := positions.count .left
  let (right, rest) ← splitRight operator operands
  if wantedRight < right.length then
    let excess ← Span.encompass ((right.drop wantedRight).map Operand.span)
    excess.fail (.operandUnexpected (some operator.extent))
  else if right.length < wantedRight then
    let place ← operator.pointAt operator.extent.stop
    place.fail (.operandExpected (some operator.extent))
  else
    let (left, rest) := splitLeft boundary wantedLeft rest
    if left.length < wantedLeft then
      let place ← operator.pointAt operator.extent.start
      place.fail (.operandExpected (some operator.extent))
    else return (arrange positions left right, rest)

/-- Where the operator that waits below ends; the start of the text if there is none. -/
def boundaryOf (below : List Activation) : Nat := (below.head?.map (·.span.extent.stop)).getD 0

/-- Reduces what waited on top of the operators `below`. -/
def reduce (w : Setting) (top : Activation) (below : List Activation) (operands : List Operand) :
    Attempt (List Operand) := do
  match ← w.kindAt top.rule with
  | .operator positions _ build => do
    let (args, rest) ← takeOperands top.span positions (boundaryOf below) operands
    let span ← Span.mergeAll top.span (args.map Operand.span)
    let text ← w.textFor top.token
    let expr ← checked span (build text (args.map Operand.expr))
    return ⟨expr, span⟩ :: rest
  | .bracketOpen | .functionCall _ | .collectionBracket _ => top.span.fail .bracketUnmatched
  | .listDelimiter => top.span.fail .delimiterOutsideBrackets
  | _ => return operands

/-- Reduces from the top of a stack of operators while the kinds of their rules allow it. -/
def foldWhile (w : Setting) (folds : RuleKind → Bool) :
    List Activation → List Operand → Attempt (List Activation × List Operand)
  | [], operands => .done ([], operands)
  | top :: below, operands => do
    if folds (← w.kindAt top.rule) then foldWhile w folds below (← reduce w top below operands)
    else return (top :: below, operands)

namespace State

/-- The state before the first token. -/
def start (parameters : List Parameter) : State := ⟨parameters, [], []⟩

/-- Puts an operand on its stack. -/
def pushOperand (s : State) (o : Operand) : State := { s with operands := o :: s.operands }

/-- Lets a token wait. -/
def await (s : State) (t : Token) : State := { s with operators := ⟨t, none⟩ :: s.operators }

/-- Reduces while the kinds of the rules on top allow it. -/
def foldWhile (w : Setting) (folds : RuleKind → Bool) (s : State) : Attempt State := do
  let (operators, operands) ← Guarded.foldWhile w folds s.operators s.operands
  return ⟨s.parameters, operands, operators⟩

end State

/-! ## Brackets -/

/-- Arguments converted to declared types, or the first one without a conversion, with its type. -/
def convertArgs : List Operand → List ValueType →
    Attempt (Except (Operand × ValueType) (List Expr))
  | operand :: operands, type :: types =>
    match operand.expr.convertTo type with
    | .ok (some expr) => do
      return (← convertArgs operands types).map (expr :: ·)
    | .ok none => .done (.error (operand, type))
    | .error (.enumParse value enumName) => operand.span.fail (.enumParse value enumName)
    | .error other => operand.span.fail (.operationInvalid (.conversion other))
  | _, _ => .done (.ok [])

/-- Arguments converted for an overload. -/
def convert (o : Overload) (contents : List Operand) :
    Attempt (Except (Operand × ValueType) (List Expr)) :=
  match o.parameters with
  | some types => convertArgs contents types
  | none => .done (.ok (contents.map Operand.expr))

/-- The call of the first candidate whose parameters the arguments convert to. -/
def callFirst (contents : List Operand) (opening args : Span) (single : Bool) :
    List Overload → Attempt Expr
  | [] => args.fail .overloadNotFound
  | o :: candidates => do
    match ← convert o contents with
    | .ok exprs => checked (← opening.merge args) (o.build exprs)
    | .error (operand, expected) =>
      if single then operand.span.fail (.argumentType expected operand.expr.type)
      else callFirst contents opening args single candidates

/-- The span of arguments; what lies between the brackets if there is none. -/
def argsSpan (contents : List Operand) (opening close : Span) : Attempt Span :=
  if contents.isEmpty then opening.gapTo close else Span.encompass (contents.map Operand.span)

/-- The call of a function with the contents of its bracket. -/
def callFunction (overloads : List Overload) (contents : List Operand) (opening close : Span) :
    Attempt Operand := do
  let args ← argsSpan contents opening close
  match Overload.candidates overloads contents.length with
  | [] =>
    let expected := ((overloads.head?.bind Overload.arity?).getD contents.length)
    args.fail (.argumentCount expected contents.length)
  | candidates =>
    let expr ← callFirst contents opening args (candidates.length == 1) candidates
    return ⟨expr, ← (← opening.merge args).merge close⟩

/-- Exactly one operand between brackets. -/
def singleContent (contents : List Operand) (opening close : Span) : Attempt Operand :=
  match contents with
  | [] => do (← opening.gapTo close).fail (.operandExpected (some opening.extent))
  | [inner] => do return ⟨inner.expr, ← (← opening.merge inner.span).merge close⟩
  | _ :: others => do
    let excess ← Span.encompass (others.map Operand.span)
    excess.fail (.operandUnexpected (some opening.extent))

/-- The operand on top, if it ends before a span starts, and those below it. -/
def takeSource (opening : Span) : List Operand → Attempt (Operand × List Operand)
  | operand :: operands => do
    if ← operand.span.isBefore opening then return (operand, operands)
    else (← opening.pointAt opening.extent.start).fail (.operandExpected (some opening.extent))
  | [] => do (← opening.pointAt opening.extent.start).fail (.operandExpected (some opening.extent))

/-- What a close bracket does with a collection bracket and its contents. -/
def State.collect (w : Setting) (s : State) (build : CollectionBuilder) (top : Activation)
    (contents : List Operand) (close : Span) : Attempt State := do
  let (source, operands) ← takeSource top.span s.operands
  if source.expr.type.element?.isNone then source.span.fail .collectionExpected
  let parameter := top.slot.bind fun slot => s.parameters[slot]?.map (slot, ·)
  let parameters := match top.slot with
    | some slot => s.parameters.take slot
    | none => s.parameters
  let span ← (← source.span.merge top.span).merge close
  let text ← w.textFor top.token
  let expr ← checked span (build text source.expr ⟨parameter, contents.head?.map Operand.expr⟩)
  return ⟨parameters, ⟨expr, span⟩ :: operands, s.operators⟩

/-- What a close bracket does with the bracket it closes and its contents. -/
def State.applyContents (w : Setting) (s : State) (top : Activation) (contents : List Operand)
    (close : Span) : Attempt State := do
  match ← w.kindAt top.rule with
  | .functionCall overloads => do
    return s.pushOperand (← callFunction overloads contents top.span close)
  | .collectionBracket build =>
    match contents with
    | _ :: other :: others => do
      let excess ← Span.encompass ((other :: others).map Operand.span)
      excess.fail (.operandUnexpected (some top.span.extent))
    | contents => s.collect w build top contents close
  | _ => do
    return s.pushOperand (← singleContent contents top.span close)

/-- What has been unwound: the bracket that is closed, its contents, and the stacks below. -/
structure Unwound where
  top : Activation
  contents : List Operand
  operators : List Activation
  operands : List Operand

/-- The operand on top, if it lies between two spans, and those below it. -/
def takeBetween? (a b : Span) : List Operand → Attempt (Option (Operand × List Operand))
  | operand :: operands => do
    return if ← operand.span.liesBetween a b then some (operand, operands) else none
  | [] => .done none

/-- Unwinds operators down to a bracket that `links` closes. -/
def unwind (w : Setting) (links : BracketLinks) (close previous : Span) (separated : Bool)
    (contents : List Operand) : List Activation → List Operand → Attempt Unwound
  | [], _ => close.fail .bracketUnmatched
  | top :: below, operands =>
    if links.opens.contains top.rule then do
      match ← takeBetween? top.span previous operands with
      | some (operand, rest) => return ⟨top, operand :: contents, below, rest⟩
      | none =>
        if separated then
          (← top.span.gapTo previous).fail (.operandExpected (some top.span.extent))
        else return ⟨top, contents, below, operands⟩
    else if links.delimiter = some top.rule then do
      match ← takeBetween? top.span previous operands with
      | some (operand, rest) =>
        unwind w links close top.span true (operand :: contents) below rest
      | none => (← top.span.gapTo previous).fail (.operandExpected (some top.span.extent))
    else do
      unwind w links close previous separated contents below (← reduce w top below operands)

/-- Closes a bracket. -/
def State.close (w : Setting) (s : State) (t : Token) : Attempt State := do
  let links ← w.linksAt t.rule
  let u ← unwind w links t.span t.span false [] s.operators s.operands
  State.applyContents w ⟨s.parameters, u.operands, u.operators⟩ u.top u.contents t.span

/-! ## Tokens -/

/-- Whether the operand on top stands behind a span. -/
def started (opening : Span) : List Operand → Attempt Bool
  | operand :: _ => operand.span.isAfter opening
  | [] => .done false

/-- The collection whose bracket waits on top, if nothing stands in the bracket yet. -/
def State.accessorSource (w : Setting) (s : State) (t : Token) :
    Attempt (Operand × Activation × List Activation) :=
  match s.operators with
  | [] => t.span.fail .accessorUnexpected
  | top :: below => do
    let kind ← w.kindAt top.rule
    let isCollection := kind matches .collectionBracket _
    let started ← started top.span s.operands
    if !isCollection || top.slot.isSome || started then t.span.fail .accessorUnexpected
    else do
      let (source, _) ← takeSource top.span s.operands
      return (source, top, below)

/-- Names the element of the collection whose bracket has just opened. -/
def State.declareAccessor (w : Setting) (s : State) (t : Token) : Attempt State := do
  let (source, top, below) ← s.accessorSource w t
  match source.expr.type.element? with
  | none => source.span.fail .collectionExpected
  | some element =>
    let name := accessorName (← t.span.read)
    if s.parameters.any fun p => p.name.any (Text.eqIgnoreCase · name) then
      t.span.fail (.parameterDuplicate name)
    else
      return ⟨s.parameters ++ [⟨some name, element⟩], s.operands,
        { top with slot := some s.parameters.length } :: below⟩

/-- Takes one token. -/
def State.apply (w : Setting) (s : State) (t : Token) : Attempt State := do
  match ← w.kindAt t.rule with
  | .terminal => return s
  | .operand build => do
    let text ← w.textFor t
    let expr ← checked t.span (build text s.parameters)
    return s.pushOperand ⟨expr, t.span⟩
  | .operator positions precedence _ => do
    let s ← match precedence with
      | some precedence =>
        if positions.contains .left then s.foldWhile w (yieldsTo precedence) else pure s
      | none => pure s
    return s.await t
  | .collectionBracket _ => do
    let s ← s.foldWhile w isComplete
    return s.await t
  | .bracketOpen | .functionCall _ | .listDelimiter => return s.await t
  | .collectionAccessor => s.declareAccessor w t
  | .bracketClose _ _ => s.close w t

/-- Takes tokens in order. -/
def State.applyAll (w : Setting) : State → List Token → Attempt State
  | s, [] => .done s
  | s, t :: ts => do applyAll w (← s.apply w t) ts

/-- Reduces everything that waits; exactly one operand must remain. -/
def State.finish (w : Setting) (source : String) (s : State) : Attempt Expr := do
  let s ← s.foldWhile w fun _ => true
  match s.operands with
  | [] => (← (Span.whole source).pointAt 0).fail (.operandExpected none)
  | [operand] => return operand.expr
  | top :: _ => top.span.fail (.operandUnexpected none)

/-! ## Texts -/

open Pattern (Cursor)

/-- The first place from a cursor on with a match. To go on, the text is cut there. -/
def search? (s : Scanner) (source : String) (c : Cursor) : Attempt (Option (Cursor × Scanner.Match)) :=
  match s.matchAt? c with
  | some m => .done (some (c, m))
  | none => do
    let _ ← (Span.mk source ⟨c.offset, Text.byteLength source.toList⟩).read
    match _h : c.next? with
    | some (_, d) => search? s source d
    | none => return none
termination_by c.remaining
decreasing_by exact Cursor.next?_remaining _h

/-- The span of a gap, with its text for the log. -/
def gapSpan (source : String) (start stop : Nat) : Attempt Span := do
  let gap ← Span.within source start stop
  let _ ← gap.read
  return gap

/-- The tokens from a place on, and the first stretch that no rule matches. -/
def scanFrom (s : Scanner) (source : String) (c : Cursor) : Attempt (List Token × Option Span) := do
  match ← search? s source c with
  | none =>
    if c.rest.isEmpty then return ([], none)
    else return ([], some (← gapSpan source c.offset (c.offset + Text.byteLength c.rest)))
  | some (start, m) =>
    if c.offset < start.offset then return ([], some (← gapSpan source c.offset start.offset))
    else if _h : m.stop.remaining < c.remaining then do
      let rule ← lookup s.rules m.rule
      if rule.ignored then scanFrom s source m.stop
      else
        let span ← Span.within source c.offset m.stop.offset
        let (tokens, gap) ← scanFrom s source m.stop
        return (⟨m.rule, span⟩ :: tokens, gap)
    else return ([], none)
termination_by c.remaining

/-- The expression of a text. -/
def parse (l : Language) (cuts : String → String → List Extent) (text : String)
    (parameters : List Parameter) : Attempt Expr := do
  let w : Setting := ⟨l.grammar, cuts⟩
  let (tokens, gap) ← scanFrom l.scanner text (.start text)
  let s ← (State.start parameters).applyAll w tokens
  match gap with
  | some gap => gap.fail .unexpectedToken
  | none => s.finish w text

end Guarded

end Parlance
