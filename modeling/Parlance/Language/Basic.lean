import Parlance.ParseState.Apply

/-!
# Languages

A `Language` is a list of rules that fit together: a scanner for its tokens and the links of its close
brackets. It parses a text to an expression, in which parameters may be in scope. Text that no rule
matches is an error only if the tokens before it raise none.
-/

namespace Parlance

/-- A scanner and the links between its rules. -/
structure Language where
  scanner : Scanner
  links : List (Option BracketLinks)

namespace Language

/-- The language of a list of rules; the rules are first checked one by one, then with one another. -/
def make? (rules : List Rule) : Except GrammarError Language := do
  let scanner ← Scanner.make? rules
  let links ← BracketLinks.link rules
  return ⟨scanner, links⟩

/-- The language of rules that fit together. -/
def ofRules (rules : List Rule) (fits : (make? rules).toOption.isSome = true) : Language :=
  (make? rules).toOption.get fits

/-- The rules. -/
def rules (l : Language) : List Rule := l.scanner.rules

/-- The rules with the links of their close brackets. -/
def grammar (l : Language) : Grammar := ⟨l.scanner.rules, l.links⟩

/-- The end of a scan: an error if some of the text was not matched. -/
def afterScan (scan : Scan) : Except ParseError Unit :=
  match scan.gap? with
  | some gap => gap.fail .unexpectedToken
  | none => .ok ()

/-- The expression of a text. -/
def parse (l : Language) (text : String) (parameters : List Parameter) :
    Except ParseError Expr := do
  let scan := l.scanner.scan text
  let s ← (ParseState.start parameters).applyAll l.grammar scan.tokens
  afterScan scan
  s.finish l.grammar

/-- The function of the parameters that a text denotes. -/
def compile (l : Language) (text : String) (parameters : List Parameter) :
    Except ParseError Lambda := do
  return ⟨parameters, ← l.parse text parameters⟩

end Language

end Parlance
