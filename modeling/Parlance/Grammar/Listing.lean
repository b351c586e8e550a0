import Parlance.Grammar.Scanner
import Parlance.Json.Basic
import Parlance.ParseError

/-!
# Token listings

The tokens of a text for a reader: one line for each, or a JSON array of objects, with the rule's name,
the text and the extent. Text that no rule matches is an error.
-/

namespace Parlance

/-- An extent as a JSON object with the text that it covers. -/
def Extent.toJson (e : Extent) (covered : String) : Json :=
  .object [("start", .integer e.start), ("end", .integer e.stop), ("text", .string covered)]

namespace Scanner

/-- The tokens of a text that the rules match to its end. -/
def tokens? (s : Scanner) (text : String) : Except ParseError (List Token) :=
  let scan := s.scan text
  match scan.gap? with
  | some gap => gap.fail .unexpectedToken
  | none => .ok scan.tokens

/-- A token on a line of its own. -/
def line (s : Scanner) (t : Token) : String := s!"{s.ruleName t} '{t.text}' {t.extent.print}\n"

/-- Tokens line by line. -/
def lines (s : Scanner) (tokens : List Token) : String := String.join (tokens.map s.line)

/-- A token as a JSON object. -/
def tokenJson (s : Scanner) (t : Token) : Json :=
  .object [("rule", .string (s.ruleName t)), ("text", .string t.text),
    ("span", t.extent.toJson t.text)]

/-- Tokens as a JSON array. -/
def listing (s : Scanner) (tokens : List Token) : String :=
  (Json.array (tokens.map s.tokenJson)).pretty

end Scanner

end Parlance
