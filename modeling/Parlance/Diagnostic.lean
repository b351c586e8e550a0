import Parlance.Language.Basic

/-!
# Diagnostics

A `Diagnostic` is an error as a reader sees it: a stable code, a message, advice, and labels on the text
that it is about. A label without width is widened to one byte, except at the end of the text.
-/

namespace Parlance

/-- A remark on a stretch of text. -/
structure Label where
  text : String
  offset : Nat
  length : Nat
  deriving DecidableEq, Repr

/-- An error as a reader sees it; `causes` are the messages of the errors behind it. -/
structure Diagnostic where
  code : String
  message : String
  help : Option String := none
  labels : List Label := []
  hasText : Bool := false
  causes : List String := []
  deriving DecidableEq, Repr

namespace GrammarError

/-- The stable code. -/
def code : GrammarError → String
  | invalidRuleName _ => "strexpr::grammar::invalid_rule_name"
  | duplicateRuleName _ => "strexpr::grammar::duplicate_rule_name"
  | invalidPattern _ => "strexpr::grammar::invalid_pattern"
  | combinedPattern => "strexpr::grammar::combined_pattern"
  | unknownRule .. => "strexpr::grammar::unknown_rule"
  | notAnOpenBracket .. | notADelimiter .. => "strexpr::grammar::rule_kind_mismatch"
  | emptyOverloads _ => "strexpr::grammar::empty_overloads"

/-- What to do about it. -/
def help? : GrammarError → Option String
  | invalidRuleName _ =>
    some "rule names may only contain ASCII letters, digits and underscores"
  | duplicateRuleName _ => some "give every rule a unique name"
  | emptyOverloads _ => some "declare at least one overload"
  | _ => none

/-- The error as a reader sees it. -/
def diagnostic (e : GrammarError) : Diagnostic :=
  { code := e.code, message := e.message, help := e.help? }

end GrammarError

namespace EvalError

/-- The stable code. -/
def code : EvalError → String
  | divisionByZero => "strexpr::eval::division_by_zero"
  | overflow .. => "strexpr::eval::overflow"
  | nullReference _ => "strexpr::eval::null_reference"
  | typeMismatch .. => "strexpr::eval::type_mismatch"
  | unboundParameter _ => "strexpr::eval::unbound_parameter"
  | arity .. => "strexpr::eval::arity"
  | function .. => "strexpr::eval::function"
  | conversion _ => "strexpr::eval::conversion"
  | panic _ => "panic"

/-- The error as a reader sees it. -/
def diagnostic (e : EvalError) : Diagnostic :=
  { code := e.code, message := e.message, causes := e.causes }

end EvalError

namespace ParseError

/-- The stable code. -/
def code (e : ParseError) : String :=
  match e.fault with
  | .unexpectedToken => "strexpr::parse::unexpected_token"
  | .operandExpected _ => "strexpr::parse::operand_expected"
  | .operandUnexpected _ => "strexpr::parse::operand_unexpected"
  | .bracketUnmatched => "strexpr::parse::bracket_unmatched"
  | .delimiterOutsideBrackets => "strexpr::parse::list_delimiter_not_within_brackets"
  | .argumentCount .. => "strexpr::parse::function_argument_count"
  | .argumentType .. => "strexpr::parse::function_argument_type"
  | .overloadNotFound => "strexpr::parse::function_overload_not_found"
  | .operationInvalid _ => "strexpr::parse::operation_invalid"
  | .enumParse .. => "strexpr::parse::enum_parse"
  | .parameterDuplicate _ => "strexpr::parse::parameter_duplicate"
  | .collectionExpected => "strexpr::parse::collection_expected"
  | .accessorUnexpected => "strexpr::parse::accessor_unexpected"

/-- What to do about it. -/
def help? (e : ParseError) : Option String :=
  match e.fault with
  | .operandExpected _ => some "an operator or delimiter is missing its operand"
  | .operandUnexpected _ => some "two operands must be joined by an operator"
  | .bracketUnmatched => some "check that brackets are balanced"
  | .delimiterOutsideBrackets => some "list delimiters may only separate bracketed arguments"
  | .argumentCount expected _ => some s!"pass {expected} argument(s)"
  | .enumParse _ enumName => some s!"use one of the symbols declared by `{enumName}`"
  | _ => none

/-- The remark on the text that is responsible. -/
def remark (e : ParseError) : String :=
  match e.fault with
  | .unexpectedToken => "no rule matches this text"
  | .operandExpected _ => "operand expected here"
  | .operandUnexpected _ => "operator expected before this"
  | .bracketUnmatched => "unmatched bracket"
  | .delimiterOutsideBrackets => "outside any bracket"
  | .argumentCount _ actual => s!"{actual} argument(s)"
  | .argumentType expected _ => s!"expected {expected.print}"
  | .overloadNotFound => "no matching overload"
  | .operationInvalid refusal => refusal.message
  | .enumParse _ enumName => s!"not a `{enumName}`"
  | .parameterDuplicate _ => "declared again here"
  | .collectionExpected => "not a collection"
  | .accessorUnexpected => "misplaced accessor"

/-- The operator that the fault is about, if it is known. -/
def operator? (e : ParseError) : Option Extent :=
  match e.fault with
  | .operandExpected operator | .operandUnexpected operator => operator
  | _ => none

end ParseError

/-- A label on an extent of a text with a number of bytes. -/
def Label.ofExtent (text : String) (size : Nat) (e : Extent) : Label :=
  ⟨text, e.start, if e.isEmpty && e.start < size then 1 else e.length⟩

namespace ParseError

/-- The labels on a text: on the segment, and on the operator unless it is the segment. -/
def labels (e : ParseError) (text : String) : List Label :=
  let size := Text.byteLength text.toList
  let operator := e.operator?.filter (· ≠ e.extent)
  .ofExtent e.remark size e.extent ::
    (operator.map (Label.ofExtent "while applying this" size)).toList

/-- The error as a reader sees it, over the text. -/
def diagnostic (e : ParseError) (text : String) : Diagnostic :=
  { code := e.code, message := e.message text, help := e.help?, labels := e.labels text,
    hasText := true, causes := e.causes }

end ParseError

/-- Why a text has no value: it cannot be parsed, or its evaluation fails. -/
inductive RunError where
  | parse (error : ParseError)
  | eval (error : EvalError)

namespace RunError

/-- The error as a reader sees it, over the text. -/
def diagnostic (e : RunError) (text : String) : Diagnostic :=
  match e with
  | parse error => error.diagnostic text
  | eval error => error.diagnostic

/-- A parse as a step of a run. -/
def ofParse {α : Type} (r : Except ParseError α) : Except RunError α := r.mapError parse

/-- An evaluation as a step of a run. -/
def ofEval {α : Type} (r : Except EvalError α) : Except RunError α := r.mapError eval

end RunError

end Parlance
