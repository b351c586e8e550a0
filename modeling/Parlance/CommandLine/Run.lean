import Parlance.CommandLine.Arguments
import Parlance.Grammar.Listing
import Parlance.Json.Parse
import Parlance.Language.Arithmetic
import Parlance.Language.Filter
import Parlance.Rows.Load

/-!
# Running commands

`Arguments.run` gives what a command prints, from its arguments and the content of the file with its
rows. Formulas are for `eval`, `tokens` and `tree`, filters for `filter` and `tree --filter`. An
expression that is too long is refused before anything else is looked at.
-/

namespace Parlance.CommandLine

/-- Why a command fails. -/
inductive RunFailure where
  | inputTooLong (length limit : Nat)
  | unreadable (path : String)
  | invalidJson (path : String)
  | invalidRows (path : String) (error : DataError)
  | run (error : RunError)

namespace RunFailure

/-- The failure of a parse. -/
def ofParse {α : Type} (r : Except ParseError α) : Except RunFailure α :=
  r.mapError fun e => run (.parse e)

/-- The failure of a run. -/
def ofRun {α : Type} (r : Except RunError α) : Except RunFailure α := r.mapError run

/-- The failure as a reader sees it, over the expression. -/
def diagnostic (f : RunFailure) (expression : String) : Diagnostic :=
  match f with
  | inputTooLong length limit =>
    { code := "strexpr::cli::input_too_long"
      message := s!"expression is {length} bytes, over the {limit}-byte limit"
      help := some "raise the limit with --max-input-len or STREXPR_MAX_INPUT" }
  | unreadable path =>
    { code := "strexpr::cli::read", message := s!"cannot read {Text.quoted .text path}" }
  | invalidJson path =>
    { code := "strexpr::cli::json", message := s!"{Text.quoted .text path} is not valid JSON" }
  | invalidRows path error =>
    { code := "strexpr::cli::data"
      message := s!"cannot load records from {Text.quoted .text path}"
      causes := [error.message] }
  | run error => error.diagnostic expression

end RunFailure

/-- The rows of a file by its path and content; there is no content if it cannot be read. -/
def loadRows (path : String) (content : Option String) : Except RunFailure Rows :=
  match content with
  | none => .error (.unreadable path)
  | some text =>
    match Json.parse? text with
    | none => .error (.invalidJson path)
    | some json => (Rows.load json).mapError (.invalidRows path)

/-- Records as a JSON array. -/
def printRecords (records : List Record) : String :=
  (Json.array (records.map fun r => r.toValue.toJson)).pretty

/-- What a command prints. -/
def Command.run (content : Option String) : Command → Except RunFailure String
  | eval expression => do
    let value ← RunFailure.ofRun (Arithmetic.evaluate expression)
    return value.print ++ "\n"
  | tokens expression json => do
    let scanner := Arithmetic.language.scanner
    let tokens ← RunFailure.ofParse (scanner.tokens? expression)
    return if json then scanner.listing tokens ++ "\n" else scanner.lines tokens
  | filter expression path => do
    let rows ← loadRows path content
    let selected ← RunFailure.ofRun (Filter.filter expression rows.schema rows.records)
    return printRecords selected ++ "\n"
  | tree expression => do
    let formula ← RunFailure.ofParse (Arithmetic.parse expression)
    return formula.body.print ++ "\n"
  | filterTree expression path => do
    let rows ← loadRows path content
    let predicate ← RunFailure.ofParse (Filter.parse expression rows.schema)
    return predicate.body.print ++ "\n"

/-- What a command prints, if its expression is not too long. -/
def Arguments.run (a : Arguments) (content : Option String) : Except RunFailure String :=
  let length := Text.byteLength a.command.expression.toList
  if a.maxInputLength < length then .error (.inputTooLong length a.maxInputLength)
  else a.command.run content

end Parlance.CommandLine
