/-!
# Operators

The operators of expressions with their symbols: on one operand, on two operands, and the quantifiers
over collections.
-/

namespace Parlance

/-- An operator with one operand. -/
inductive UnaryOp where
  | negate | not
  deriving DecidableEq, Repr

/-- The symbol of an operator with one operand. -/
def UnaryOp.symbol : UnaryOp → String
  | negate => "-"
  | not => "!"

/-- An operator with two operands. -/
inductive BinaryOp where
  | add | subtract | multiply | divide | modulo
  | equal | notEqual
  | greater | greaterOrEqual | less | lessOrEqual
  | and | or
  deriving DecidableEq, Repr

namespace BinaryOp

/-- Operators on numbers of one kind. -/
def isArithmetic (op : BinaryOp) : Bool :=
  op matches add | subtract | multiply | divide | modulo

/-- Equality and its negation. -/
def isEquality (op : BinaryOp) : Bool := op matches equal | notEqual

/-- Comparisons by order. -/
def isOrdering (op : BinaryOp) : Bool :=
  op matches greater | greaterOrEqual | less | lessOrEqual

/-- The symbol of an operator with two operands. -/
def symbol : BinaryOp → String
  | add => "+"
  | subtract => "-"
  | multiply => "*"
  | divide => "/"
  | modulo => "%"
  | equal => "=="
  | notEqual => "!="
  | greater => ">"
  | greaterOrEqual => ">="
  | less => "<"
  | lessOrEqual => "<="
  | and => "&&"
  | or => "||"

/-- All operators with two operands. -/
def all : List BinaryOp :=
  [add, subtract, multiply, divide, modulo, equal, notEqual, greater, greaterOrEqual, less,
    lessOrEqual, and, or]

end BinaryOp

/-- Whether a predicate has to hold for some element or for all of them. -/
inductive CollectionOp where
  | any | all
  deriving DecidableEq, Repr

/-- The name of a quantifier. -/
def CollectionOp.name : CollectionOp → String
  | any => "any"
  | all => "all"

end Parlance
