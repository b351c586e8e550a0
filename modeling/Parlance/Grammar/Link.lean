import Parlance.Grammar.Rule

/-!
# Links between rules

A close bracket names the rules that it closes and its delimiter. `link` looks these names up once and
refuses a list of rules in which one is missing or of the wrong kind, or in which a function has no
overload. The first fault in the order of the rules is the one that is reported.
-/

namespace Parlance

/-- Why a list of rules makes no language. -/
inductive GrammarError where
  | invalidRuleName (name : String)
  | duplicateRuleName (name : String)
  | invalidPattern (name : String)
  | combinedPattern
  | unknownRule (rule reference : String)
  | notAnOpenBracket (rule reference : String)
  | notADelimiter (rule reference : String)
  | emptyOverloads (name : String)
  deriving DecidableEq, Repr

namespace GrammarError

/-- The wording of a grammar error. -/
def message : GrammarError → String
  | invalidRuleName name => s!"rule name `{name}` is invalid"
  | duplicateRuleName name => s!"rule name `{name}` is declared more than once"
  | invalidPattern name => s!"rule `{name}` has an invalid pattern"
  | combinedPattern => "the combined token pattern failed to compile"
  | unknownRule rule reference => s!"rule `{rule}` refers to unknown rule `{reference}`"
  | notAnOpenBracket rule reference =>
    s!"rule `{rule}` refers to `{reference}`, which is not an open bracket"
  | notADelimiter rule reference =>
    s!"rule `{rule}` refers to `{reference}`, which is not a list delimiter"
  | emptyOverloads name => s!"function rule `{name}` declares no overloads"

end GrammarError

/-- The rules that a close bracket closes and its delimiter, by their places in the list. -/
structure BracketLinks where
  opens : List Nat
  delimiter : Option Nat
  deriving DecidableEq, Repr, Inhabited

namespace BracketLinks

/-- The place of the rule with a name, if its kind is as it should be. -/
def find (rules : List Rule) (owner reference : String) (fits : RuleKind → Bool)
    (misfit : GrammarError) : Except GrammarError Nat :=
  match rules.findIdx? (·.name == reference) with
  | none => .error (.unknownRule owner reference)
  | some index =>
    if rules[index]?.any fun rule => fits rule.kind then .ok index else .error misfit

/-- The links of a rule: some for a close bracket, none for any other. -/
def ofRule (rules : List Rule) (rule : Rule) : Except GrammarError (Option BracketLinks) :=
  match rule.kind with
  | .functionCall [] => .error (.emptyOverloads rule.name)
  | .bracketClose opens delimiter => do
    let opens ← opens.mapM fun name =>
      find rules rule.name name RuleKind.isOpen (.notAnOpenBracket rule.name name)
    let delimiter ← delimiter.mapM fun name =>
      find rules rule.name name RuleKind.isDelimiter (.notADelimiter rule.name name)
    return some ⟨opens, delimiter⟩
  | _ => .ok none

/-- The links of every rule of a list. -/
def link (rules : List Rule) : Except GrammarError (List (Option BracketLinks)) :=
  rules.mapM (ofRule rules)

end BracketLinks

end Parlance
