import Parlance.Expr.Basic
import Parlance.Value.Operation

/-!
# Evaluation

`Expr.evaluate` runs an expression over an environment, the list of the values of the parameters by
slot. A predicate over a collection binds its element to a slot and cuts the environment back to its
length afterwards, also on failure. A `Lambda` is an expression with the parameters it reads.
-/

namespace Parlance

/-! ## Expressions -/

/-- A computation over an environment, which it may change whether it fails or not. -/
abbrev Eval (α : Type) : Type := ExceptT EvalError (StateM (List Value)) α

namespace Eval

/-- A computation that leaves the environment alone. -/
def ofExcept {α : Type} (x : Except EvalError α) : Eval α := ExceptT.mk (pure x)

/-- The value in a slot. -/
def read (slot : Nat) : Eval Value := do
  match (← getThe (List Value))[slot]? with
  | some v => return v
  | none => throw (.unboundParameter slot)

/-- The environment with a value in a slot, filled up with nulls before it. -/
def bind (slot : Nat) (v : Value) (env : List Value) : List Value :=
  (env ++ List.replicate (slot + 1 - env.length) Value.null).set slot v

/-- Runs a predicate over elements until one decides. -/
def quantifyItems (op : CollectionOp) (slot : Option Nat) (predicate : Eval Value) :
    List Value → Eval Bool
  | [] => return op == .all
  | item :: items => do
    if let some slot := slot then modifyThe (List Value) (bind slot item)
    let verdict ← predicate
    let verdict ← ofExcept verdict.truth
    if verdict == (op == .any) then return verdict else quantifyItems op slot predicate items

/-- Runs a computation and then cuts the environment back to its length before it. -/
def restoring {α : Type} (x : Eval α) : Eval α :=
  ExceptT.mk fun env => let (result, after) := x.run env; (result, after.take env.length)

end Eval

/-- The error of an evaluation in which a call of the function fails. -/
def Function.failure (f : Function) : HostFailure → EvalError
  | .message text => .function f.name text
  | .panic text => .panic text

namespace Expr

mutual

/-- The value of an expression over an environment. -/
def evaluate : Expr → Eval Value
  | .constant value _ => return value
  | .parameter slot _ _ => Eval.read slot
  | .field target index name _ => do
    let v ← evaluate target
    Eval.ofExcept (v.fieldAt index name)
  | .convert operand type => do
    let v ← evaluate operand
    Eval.ofExcept (v.convert type)
  | .unary op operand _ => do
    let v ← evaluate operand
    Eval.ofExcept (v.unary op)
  | .binary op left right _ => do
    let a ← evaluate left
    if op = .and || op = .or then
      let decided ← Eval.ofExcept a.truth
      if decided == (op == .or) then return .bool decided
      else
        let b ← evaluate right
        return .bool (← Eval.ofExcept b.truth)
    else
      let b ← evaluate right
      Eval.ofExcept (a.binary op b)
  | .call function args => do
    let values ← evaluateItems args
    Eval.ofExcept ((function.body values).mapError function.failure)
  | .list items => do
    let values ← evaluateItems items
    return .list values
  | .collection op source _ none => do
    let v ← evaluate source
    let items ← Eval.ofExcept v.elements
    return .bool (op == .all || !items.isEmpty)
  | .collection op source slot (some body) => do
    let v ← evaluate source
    let items ← Eval.ofExcept v.elements
    let verdict ← Eval.restoring (Eval.quantifyItems op slot (evaluate body) items)
    return .bool verdict

/-- The values of expressions, from the first to the last. -/
def evaluateItems : List Expr → Eval (List Value)
  | [] => return []
  | e :: es => do
    let v ← evaluate e
    let vs ← evaluateItems es
    return v :: vs

end

/-- The value of an expression over an environment of its own. -/
def value (e : Expr) (env : List Value) : Except EvalError Value :=
  (e.evaluate.run env).1

end Expr

/-! ## Functions of parameters -/

/-- An expression with the parameters that it reads. -/
structure Lambda where
  parameters : List Parameter
  body : Expr

namespace Lambda

/-- The type of the results. -/
def returns (f : Lambda) : ValueType := f.body.type

/-- The value of the body for arguments, one for each parameter. -/
def invoke (f : Lambda) (args : List Value) : Except EvalError Value :=
  if args.length ≠ f.parameters.length then .error (.arity f.parameters.length args.length)
  else f.body.value args

end Lambda

end Parlance
