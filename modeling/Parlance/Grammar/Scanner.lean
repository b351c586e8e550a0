import Parlance.Extent
import Parlance.Grammar.Link
import Parlance.Pattern.Automaton
import Parlance.Pattern.Parse

/-!
# Tokens

A `Scanner` cuts a text into tokens by the patterns of an ordered list of rules. At each place the
first rule that matches wins, whatever the lengths of the matches; where that match is empty, the first
rule with a match that is not. Text that no rule matches ends the tokens, and `Scan.gap?` is its extent.

The first rule that matches is told by the branches of one pattern, in which the patterns of all rules
are alternatives. A branch is the pattern of its rule, except where the text of a rule ends in a comment
that goes on into those of the rules after it.
-/

namespace Parlance

/-- A piece of text, and the place of the rule that it matches. -/
structure Token where
  rule : Nat
  text : String
  extent : Extent
  deriving DecidableEq, Repr

/-- The tokens of a text, and the first stretch of it that no rule matches. -/
structure Scan where
  tokens : List Token
  gap? : Option Extent
  deriving DecidableEq, Repr

/-- The place of a rule, and how to match its text. -/
structure Branch where
  rule : Nat
  matcher : Pattern.Matcher

/-- Rules with the branches of their common pattern and with a branch for the pattern of each. -/
structure Scanner where
  rules : List Rule
  branches : List Branch
  fallbacks : List Branch

namespace Scanner

/-! ## Building -/

/-- Whether a name consists of ASCII letters, digits and underscores, at least one. -/
def isRuleName (name : String) : Bool :=
  !name.isEmpty && name.toList.all fun c => c.isAlphanum || c == '_'

/-- The pattern of a rule, given the names of the rules before it. -/
def patternOf (before : List String) (rule : Rule) : Except GrammarError Pattern :=
  if !isRuleName rule.name then .error (.invalidRuleName rule.name)
  else if before.contains rule.name then .error (.duplicateRuleName rule.name)
  else
    match Pattern.parse? rule.pattern with
    | some pattern => .ok pattern
    | none => .error (.invalidPattern rule.name)

/-- The patterns of rules, given the names of the rules before them. -/
def patternsOf (before : List String) : List Rule → Except GrammarError (List Pattern)
  | [] => .ok []
  | rule :: rules => do
    let first ← patternOf before rule
    let others ← patternsOf (rule.name :: before) rules
    return first :: others

/-- The name of a rule's group in the pattern of all rules. -/
def groupName (index : Nat) : List Char := "__rule".toList ++ Nat.toDigits 10 index

/-- The pattern of a rule as a group with a name of its own. -/
def groupChars (rule : Rule) (index : Nat) : List Char :=
  "(?P<".toList ++ groupName index ++ '>' :: rule.pattern.toList ++ [')']

/-- The patterns of all rules as the alternatives of one pattern. -/
def combinedChars (rules : List Rule) : List Char :=
  List.intercalate ['|'] (rules.zipIdx.map fun (rule, index) => groupChars rule index)

/-- Patterns with the places of their rules as branches. -/
def branchesOf (patterns : List (Nat × Pattern)) : List Branch :=
  patterns.map fun (rule, pattern) => ⟨rule, .ofPattern pattern⟩

/-- The branches of the pattern of all rules that belong to one of `count` rules. -/
def ruleBranches (count : Nat) (combined : Pattern) : List (Nat × Pattern) :=
  combined.branches.filterMap fun (name, pattern) =>
    ((List.range count).find? fun index => String.ofList (groupName index) == name).map (·, pattern)

/-- The scanner for a list of rules: names must be well formed and distinct, and every pattern must be
one by itself and beside the others. -/
def make? (rules : List Rule) : Except GrammarError Scanner := do
  let patterns ← patternsOf [] rules
  match Pattern.parseChars? (combinedChars rules) with
  | none => throw .combinedPattern
  | some combined =>
    return ⟨rules, branchesOf (ruleBranches rules.length combined),
      branchesOf (patterns.zipIdx.map fun (pattern, rule) => (rule, pattern))⟩

/-! ## Scanning -/

/-- A match: the place of a rule, and where it ends. -/
structure Match where
  rule : Nat
  stop : Pattern.Cursor

/-- The match of the first branch that has one. -/
def firstMatch? (c : Pattern.Cursor) : List Branch → Option Match
  | [] => none
  | branch :: branches =>
    match branch.matcher.match? c with
    | some stop => some ⟨branch.rule, stop⟩
    | none => firstMatch? c branches

/-- The match of the first branch with one that is not empty. -/
def firstLongMatch? (c : Pattern.Cursor) : List Branch → Option Match
  | [] => none
  | branch :: branches =>
    match branch.matcher.match? c with
    | some stop =>
      if stop.offset = c.offset then firstLongMatch? c branches else some ⟨branch.rule, stop⟩
    | none => firstLongMatch? c branches

/-- The match at a place, never an empty one. -/
def matchAt? (s : Scanner) (c : Pattern.Cursor) : Option Match :=
  match firstMatch? c s.branches with
  | none => none
  | some m => if m.stop.offset = c.offset then firstLongMatch? c s.fallbacks else some m

/-- The first place from a cursor on with a match. -/
def search? (s : Scanner) (c : Pattern.Cursor) : Option (Pattern.Cursor × Match) :=
  match s.matchAt? c with
  | some m => some (c, m)
  | none =>
    match _h : c.next? with
    | some (_, d) => s.search? d
    | none => none
termination_by c.remaining
decreasing_by exact Pattern.Cursor.next?_remaining _h

/-- The text between two cursors. -/
def textBetween (c d : Pattern.Cursor) : String :=
  String.ofList (c.rest.take (c.remaining - d.remaining))

/-- The tokens from a place on. -/
def scanFrom (s : Scanner) (c : Pattern.Cursor) : Scan :=
  match s.search? c with
  | none => ⟨[], if c.rest.isEmpty then none else some ⟨c.offset, c.offset + Text.byteLength c.rest⟩⟩
  | some (start, m) =>
    if c.offset < start.offset then ⟨[], some ⟨c.offset, start.offset⟩⟩
    else
      if _h : m.stop.remaining < c.remaining then
        let scan := s.scanFrom m.stop
        if s.rules[m.rule]?.any (·.ignored) then scan
        else
          let token := ⟨m.rule, textBetween c m.stop, ⟨c.offset, m.stop.offset⟩⟩
          ⟨token :: scan.tokens, scan.gap?⟩
      else ⟨[], none⟩
termination_by c.remaining

/-- The tokens of a text. -/
def scan (s : Scanner) (text : String) : Scan := s.scanFrom (.start text)

/-- The name of a token's rule. -/
def ruleName (s : Scanner) (t : Token) : String := (s.rules[t.rule]?.map Rule.name).getD ""

end Scanner

end Parlance
