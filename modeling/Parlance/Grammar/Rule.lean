import Parlance.Expr.Conversion

/-!
# Rules

A language is an ordered list of rules. A rule has a name, a pattern for its tokens, and a kind that
says what a token does: stand for an operand, join operands, open or close a bracket, separate what a
bracket holds, or name the element of a predicate over a collection. Builders turn the texts and the
operands of tokens into expressions, or refuse to.
-/

namespace Parlance

/-! ## Builders -/

/-- Why a builder refuses its operands. -/
inductive Refusal where
  | expr (error : ExprError)
  | value (error : ValueError)
  | conversion (error : ConversionError)
  | host (message : String)

namespace Refusal

/-- The wording of a refusal. -/
def message : Refusal → String
  | expr error => error.message
  | value error => error.message
  | conversion error => error.message
  | host message => message

/-- The messages of the errors behind a refusal, the nearest first. -/
def causes : Refusal → List String
  | conversion error => error.causes
  | _ => []

/-- A checked construction as a builder's answer. -/
def ofExpr {α : Type} (r : Except ExprError α) : Except Refusal α := r.mapError expr

/-- A literal as a builder's answer. -/
def ofValue {α : Type} (r : Except ValueError α) : Except Refusal α := r.mapError value

end Refusal

/-- The inside of a collection bracket: the element's slot and parameter, if it is named, and the
predicate, if there is one. -/
structure CollectionBody where
  parameter : Option (Nat × Parameter)
  body : Option Expr

/-- A builder from the text of a token and the parameters in scope. -/
abbrev OperandBuilder : Type := String → List Parameter → Except Refusal Expr

/-- A builder from the text of a token and its operands in the order of the positions. -/
abbrev OperatorBuilder : Type := String → List Expr → Except Refusal Expr

/-- A builder from the text of a bracket, the collection before it and what it holds. -/
abbrev CollectionBuilder : Type := String → Expr → CollectionBody → Except Refusal Expr

/-- One way to call a function: the types of its parameters, or any number of arguments, and a builder
from the converted arguments. -/
structure Overload where
  parameters : Option (List ValueType)
  build : List Expr → Except Refusal Expr

namespace Overload

/-- The overload that calls a host function. -/
def ofFunction (f : Function) : Overload :=
  ⟨some f.parameters, fun args => Refusal.ofExpr (Expr.call? f args)⟩

/-- The number of parameters, unless any number will do. -/
def arity? (o : Overload) : Option Nat := o.parameters.map List.length

/-- Whether a number of arguments will do. -/
def accepts (o : Overload) (count : Nat) : Bool := o.arity?.all (· == count)

end Overload

/-! ## Rules -/

/-- Where an operator takes an operand from. -/
inductive Side where
  | left | right
  deriving DecidableEq, Repr

/-- The name of a side. -/
def Side.name : Side → String
  | left => "Left"
  | right => "Right"

/-- What a token of a rule does. -/
inductive RuleKind where
  | terminal
  | operand (build : OperandBuilder)
  | operator (positions : List Side) (precedence : Option Int) (build : OperatorBuilder)
  | bracketOpen
  | functionCall (overloads : List Overload)
  | collectionBracket (build : CollectionBuilder)
  | collectionAccessor
  | bracketClose (opens : List String) (delimiter : Option String)
  | listDelimiter

namespace RuleKind

/-- Whether a token opens a bracket. -/
def isOpen (k : RuleKind) : Bool :=
  k matches bracketOpen | functionCall _ | collectionBracket _

/-- Whether a token separates what a bracket holds. -/
def isDelimiter (k : RuleKind) : Bool := k matches listDelimiter

/-- The precedence of an operator that has one; a smaller one binds more tightly. -/
def precedence? : RuleKind → Option Int
  | operator _ precedence _ => precedence
  | _ => none

/-- The positions of an operator's operands. -/
def positions : RuleKind → List Side
  | operator positions _ _ => positions
  | _ => []

/-- The name of a kind. -/
def label : RuleKind → String
  | terminal => "Terminal"
  | operand _ => "Operand"
  | operator .. => "Operator"
  | bracketOpen => "BracketOpen"
  | functionCall _ => "FunctionCall"
  | collectionBracket _ => "CollectionBracket"
  | collectionAccessor => "CollectionAccessor"
  | bracketClose .. => "BracketClose"
  | listDelimiter => "ListDelimiter"

end RuleKind

/-- A rule; the tokens of an ignored rule are skipped. -/
structure Rule where
  name : String
  pattern : String
  ignored : Bool
  kind : RuleKind

namespace Rule

/-- A rule without effect. -/
def terminal (name pattern : String) : Rule := ⟨name, pattern, false, .terminal⟩

/-- A rule whose tokens are skipped. -/
def ignoring (name pattern : String) : Rule := ⟨name, pattern, true, .terminal⟩

/-- An operand built from its text and the parameters in scope. -/
def operandIn (name pattern : String) (build : OperandBuilder) : Rule :=
  ⟨name, pattern, false, .operand build⟩

/-- An operand built from its text. -/
def operand (name pattern : String) (build : String → Except Refusal Expr) : Rule :=
  operandIn name pattern fun text _ => build text

/-- An operator built from its text and its operands. -/
def operatorOf (name pattern : String) (precedence : Option Int) (positions : List Side)
    (build : OperatorBuilder) : Rule :=
  ⟨name, pattern, false, .operator positions precedence build⟩

/-- An operator built from its operands. -/
def operator (name pattern : String) (precedence : Option Int) (positions : List Side)
    (build : List Expr → Except Refusal Expr) : Rule :=
  operatorOf name pattern precedence positions fun _ args => build args

/-- An operator with an operand on either side, which are converted to their common type if they have
one. -/
def binary (name pattern : String) (precedence : Int)
    (build : Expr → Expr → Except Refusal Expr) : Rule :=
  operator name pattern (some precedence) [.left, .right] fun
    | [left, right] =>
      let pair := Pairing.implicit left right
      build pair.left pair.right
    | args => .error (.expr (.operandCount 2 args.length))

/-- An operator with one operand. -/
def unary (name pattern : String) (precedence : Int) (position : Side)
    (build : Expr → Except Refusal Expr) : Rule :=
  operator name pattern (some precedence) [position] fun
    | [operand] => build operand
    | args => .error (.expr (.operandCount 1 args.length))

/-- A bracket around one operand. -/
def bracketOpen (name pattern : String) : Rule := ⟨name, pattern, false, .bracketOpen⟩

/-- The close of the brackets with some names, whose contents a delimiter may separate. -/
def bracketClose (name pattern : String) (opens : List String) (delimiter : Option String) : Rule :=
  ⟨name, pattern, false, .bracketClose opens delimiter⟩

/-- A separator of what a bracket holds. -/
def listDelimiter (name pattern : String) : Rule := ⟨name, pattern, false, .listDelimiter⟩

/-- A bracket around the arguments of a function. -/
def functionCall (name pattern : String) (overloads : List Overload) : Rule :=
  ⟨name, pattern, false, .functionCall overloads⟩

/-- A bracket around a predicate over the collection before it. -/
def collection (name pattern : String) (build : CollectionBuilder) : Rule :=
  ⟨name, pattern, false, .collectionBracket build⟩

/-- A name for the element of the collection whose bracket has just opened. -/
def collectionAccessor (name pattern : String) : Rule :=
  ⟨name, pattern, false, .collectionAccessor⟩

end Rule

end Parlance
