import Parlance.Operator
import Parlance.Value.Basic

/-!
# Typed expressions

An `Expr` is a tree of constants, parameters, field accesses, conversions, operators, calls of host
functions, lists and predicates over collections. Every node knows its type: `Expr.type`. A parameter
is addressed by its slot, the place of its value in the environment. `Expr.same` is equality of trees,
where host functions are told apart by their signatures alone.
-/

namespace Parlance

/-! ## Functions and parameters -/

/-- How a host function fails: with a message, or by a panic with its text. -/
inductive HostFailure where
  | message (text : String)
  | panic (text : String)
  deriving DecidableEq, Repr

instance : Coe String HostFailure := ⟨.message⟩

/-- A function that does not panic, among those that may. -/
instance : Coe (List Value → Except String Value) (List Value → Except HostFailure Value) :=
  ⟨fun body args => (body args).mapError .message⟩

/-- A host function; `body` answers a result or a failure. -/
structure Function where
  name : String
  parameters : List ValueType
  returns : ValueType
  body : List Value → Except HostFailure Value

/-- Equality of signatures. -/
def Function.same (f g : Function) : Bool :=
  f.name == g.name && f.parameters = g.parameters && f.returns = g.returns

/-- A variable with its type; its slot is its place in the list of parameters. -/
structure Parameter where
  name : Option String
  type : ValueType
  deriving DecidableEq

/-! ## Expressions -/

/-- An expression tree. -/
inductive Expr where
  | constant (value : Value) (type : ValueType)
  | parameter (slot : Nat) (name : Option String) (type : ValueType)
  | field (target : Expr) (index : Nat) (name : String) (type : ValueType)
  | convert (operand : Expr) (type : ValueType)
  | unary (op : UnaryOp) (operand : Expr) (type : ValueType)
  | binary (op : BinaryOp) (left right : Expr) (type : ValueType)
  | call (function : Function) (args : List Expr)
  | list (items : List Expr)
  | collection (op : CollectionOp) (source : Expr) (slot : Option Nat) (body : Option Expr)

namespace Expr

/-- The untyped null. -/
def null : Expr := .constant .null .null

instance : Inhabited Expr := ⟨null⟩

/-- A constant typed after its value. -/
def ofValue (v : Value) : Expr := .constant v v.type

/-- The expression that reads a parameter. -/
def ofParameter (slot : Nat) (p : Parameter) : Expr := .parameter slot p.name p.type

mutual

/-- The static type; a list goes by its first item whose type is not that of null. -/
def type : Expr → ValueType
  | .constant _ type => type
  | .parameter _ _ type => type
  | .field _ _ _ type => type
  | .convert _ type => type
  | .unary _ _ type => type
  | .binary _ _ _ type => type
  | .call function _ => function.returns
  | .list items => .collection (elementType items)
  | .collection .. => .bool

/-- The type of the first item whose type is not that of null. -/
def elementType : List Expr → ValueType
  | [] => .null
  | item :: items => if item.type = .null then elementType items else item.type

end

/-- Whether the node is a null constant, of whatever type. -/
def isNull (e : Expr) : Bool := e matches .constant .null _

mutual

/-- Whether the tree refers to no parameter and holds no predicate over a collection. -/
def isClosed : Expr → Bool
  | .constant .. => true
  | .parameter .. => false
  | .field target _ _ _ => target.isClosed
  | .convert operand _ => operand.isClosed
  | .unary _ operand _ => operand.isClosed
  | .binary _ left right _ => left.isClosed && right.isClosed
  | .call _ args => areClosed args
  | .list items => areClosed items
  | .collection .. => false

/-- Whether all trees of a list are closed. -/
def areClosed : List Expr → Bool
  | [] => true
  | e :: es => e.isClosed && areClosed es

end

mutual

/-- Equality of trees. -/
def same : Expr → Expr → Bool
  | .constant v t, .constant w u => v.same w && t = u
  | .parameter s n t, .parameter s2 n2 t2 => s == s2 && n == n2 && t = t2
  | .field e i n t, .field e2 i2 n2 t2 => same e e2 && i == i2 && n == n2 && t = t2
  | .convert e t, .convert e2 t2 => same e e2 && t = t2
  | .unary op e t, .unary op2 e2 t2 => op = op2 && same e e2 && t = t2
  | .binary op l r t, .binary op2 l2 r2 t2 => op = op2 && same l l2 && same r r2 && t = t2
  | .call f es, .call f2 es2 => f.same f2 && sameItems es es2
  | .list es, .list es2 => sameItems es es2
  | .collection op e s none, .collection op2 e2 s2 none => op = op2 && same e e2 && s == s2
  | .collection op e s (some b), .collection op2 e2 s2 (some b2) =>
    op = op2 && same e e2 && s == s2 && same b b2
  | _, _ => false

/-- Equality of lists of trees, item by item. -/
def sameItems : List Expr → List Expr → Bool
  | [], [] => true
  | e :: es, e2 :: es2 => same e e2 && sameItems es es2
  | _, _ => false

end

/-! ## Text -/

/-- What stands before the body of a predicate: the slot of its element, if it has one. -/
def printSlot : Option Nat → String
  | some slot => s!"${slot} => "
  | none => ""

mutual

/-- The text of a tree, with every operation in brackets. -/
def print : Expr → String
  | .constant value _ => value.print
  | .parameter slot name _ => name.getD s!"${slot}"
  | .field target _ name _ => s!"{target.print}.{name}"
  | .convert operand type => s!"({operand.print} as {type.print})"
  | .unary op operand _ => s!"({op.symbol}{operand.print})"
  | .binary op left right _ => s!"({left.print} {op.symbol} {right.print})"
  | .call function args => function.name ++ "(" ++ ", ".intercalate (printItems args) ++ ")"
  | .list items => "[" ++ ", ".intercalate (printItems items) ++ "]"
  | .collection op source slot none => s!"{source.print}.{op.name}({printSlot slot})"
  | .collection op source slot (some body) =>
    s!"{source.print}.{op.name}({printSlot slot}{body.print})"

/-- The texts of the trees of a list. -/
def printItems : List Expr → List String
  | [] => []
  | e :: es => e.print :: printItems es

end

end Expr

end Parlance
