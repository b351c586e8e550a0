import Parlance.Grammar.Scanner
import Parlance.ParseError

/-!
# Parse states

A parse keeps two stacks: the operands that are built, and the operators, brackets and delimiters that
wait for more of them. The parameters in scope grow when a collection bracket names its element and
shrink when the bracket closes. Both stacks have their tops in front.
-/

namespace Parlance

/-- Rules with the links of their close brackets. -/
structure Grammar where
  rules : List Rule
  links : List (Option BracketLinks)

namespace Grammar

/-- The kind of the rule at a place; beyond the list there is nothing to do. -/
def kind (g : Grammar) (rule : Nat) : RuleKind := (g.rules[rule]?.map Rule.kind).getD .terminal

/-- The links of the rule at a place; rules that close nothing have none. -/
def linksOf (g : Grammar) (rule : Nat) : BracketLinks := (g.links[rule]?.join).getD ⟨[], none⟩

end Grammar

/-- An expression and the extent of the text that it was built from. -/
structure Operand where
  expr : Expr
  extent : Extent

/-- An operator, bracket or delimiter that waits; `slot` is the slot of the element that a collection
bracket has named. -/
structure Activation where
  token : Token
  slot : Option Nat

namespace Activation

/-- The place of the rule. -/
abbrev rule (a : Activation) : Nat := a.token.rule

/-- The extent of the token. -/
abbrev extent (a : Activation) : Extent := a.token.extent

end Activation

/-- The parameters in scope and the two stacks. -/
structure ParseState where
  parameters : List Parameter
  operands : List Operand
  operators : List Activation

namespace ParseState

/-- The state before the first token. -/
def start (parameters : List Parameter) : ParseState := ⟨parameters, [], []⟩

/-- Puts an operand on its stack. -/
def pushOperand (s : ParseState) (o : Operand) : ParseState :=
  { s with operands := o :: s.operands }

/-- Lets a token wait. -/
def await (s : ParseState) (t : Token) : ParseState :=
  { s with operators := ⟨t, none⟩ :: s.operators }

end ParseState

/-- The least extent that covers some operands; the empty one at the start of the text for none. -/
def Operand.coverAll : List Operand → Extent
  | [] => .point 0
  | first :: rest => first.extent.coverAll (rest.map Operand.extent)

end Parlance
