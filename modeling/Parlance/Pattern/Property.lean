import Parlance.Pattern.Boundary

/-!
# Named properties

`CharSet.property?` reads the name of a property in a pattern: a trait, a general category or a script
by itself, or a property and its value with `=`, `:` or `!=` between them, which all mean the same.
Names are compared without case, blanks, dashes, underscores and a leading `is`.
-/

namespace Parlance.Pattern.CharSet

open Parlance.Text

/-- A name as it is compared. The leading `is` of `isc` is part of the name. -/
def plainName (cs : List Char) : String :=
  let hasIs := (cs.take 2).map Char.toLower == ['i', 's']
  let kept := ((if hasIs then cs.drop 2 else cs).filter fun c =>
    c.toNat < 128 && c != ' ' && c != '_' && c != '-').map Char.toLower
  String.ofList (if hasIs && kept == ['c'] then ['i', 's', 'c'] else kept)

/-- General categories and their groups by their codes and names. -/
def generalCategories : List (List String × List Category) :=
  [(["c", "other"], Category.others), (["cc", "control", "cntrl"], [.control]),
   (["cf", "format"], [.format]), (["cn", "unassigned"], [.unassigned]),
   (["co", "privateuse"], [.privateUse]), (["l", "letter"], Category.letters),
   (["lc", "casedletter"], Category.casedLetters), (["ll", "lowercaseletter"], [.lowercaseLetter]),
   (["lm", "modifierletter"], [.modifierLetter]), (["lo", "otherletter"], [.otherLetter]),
   (["lt", "titlecaseletter"], [.titlecaseLetter]), (["lu", "uppercaseletter"], [.uppercaseLetter]),
   (["m", "mark", "combiningmark"], Category.marks), (["mc", "spacingmark"], [.spacingMark]),
   (["me", "enclosingmark"], [.enclosingMark]), (["mn", "nonspacingmark"], [.nonspacingMark]),
   (["n", "number"], Category.numbers), (["nd", "decimalnumber", "digit"], [.decimalNumber]),
   (["nl", "letternumber"], [.letterNumber]), (["no", "othernumber"], [.otherNumber]),
   (["p", "punctuation", "punct"], Category.punctuation),
   (["pc", "connectorpunctuation"], [.connectorPunctuation]),
   (["pd", "dashpunctuation"], [.dashPunctuation]), (["pe", "closepunctuation"], [.closePunctuation]),
   (["pf", "finalpunctuation"], [.finalPunctuation]),
   (["pi", "initialpunctuation"], [.initialPunctuation]),
   (["po", "otherpunctuation"], [.otherPunctuation]), (["ps", "openpunctuation"], [.openPunctuation]),
   (["s", "symbol"], Category.symbols), (["sc", "currencysymbol"], [.currencySymbol]),
   (["sk", "modifiersymbol"], [.modifierSymbol]), (["sm", "mathsymbol"], [.mathSymbol]),
   (["so", "othersymbol"], [.otherSymbol]), (["z", "separator"], Category.separators),
   (["zl", "lineseparator"], [.lineSeparator]), (["zp", "paragraphseparator"], [.paragraphSeparator]),
   (["zs", "spaceseparator"], [.spaceSeparator])]

/-- The characters of a general category, of a group of them, or of all. -/
def general? : String → Option CharSet
  | "any" => some everything
  | "assigned" => some (.complement (.categories [.unassigned]))
  | "ascii" => some (.interval '\x00' '\x7f')
  | name =>
    (generalCategories.find? fun (names, _) => names.contains name).map fun (_, cs) => .categories cs

/-- The code of a script by its code or name. -/
def scriptCode? : String → Option String
  | "qaac" => some "Copt"
  | "qaai" => some "Zinh"
  | name =>
    (Script.names.find? fun (code, long) =>
      plainName code.toList == name || plainName long.toList == name).map (·.1)

/-- The characters of a version, such as `3.0` or `V3_0`, and of the ones before it. -/
def age? (name : String) : Option CharSet :=
  let named := fun v : Version =>
    v.upTo .ofPatterns && (name == s!"{v.major}.{v.minor}" || name == s!"v{v.major}{v.minor}")
  (Version.codes.find? fun (_, v) => named v).map fun (_, v) =>
    .ranges (Version.table.intervals Intervals.lastPoint fun w => w.any (·.upTo v))

/-- The characters for which a property has a value. -/
def valued? (property value : List Char) : Option CharSet :=
  let value := plainName value
  match plainName property with
  | "gc" | "generalcategory" => general? value
  | "sc" | "script" => (scriptCode? value).map fun code => .ranges (Script.members code)
  | "scx" | "scriptextensions" => (scriptCode? value).map fun code => .ranges (Script.users code)
  | "age" => age? value
  | "gcb" | "graphemeclusterbreak" => graphemePart? value
  | "wb" | "wordbreak" => wordPart? value
  | "sb" | "sentencebreak" => sentencePart? value
  | _ => none

/-- The characters with a trait, of a general category or of a script. `cf`, `sc` and `lc` are
categories. -/
def named? (name : List Char) : Option CharSet :=
  let name := plainName name
  (trait? name).orElse fun _ =>
    (general? name).orElse fun _ =>
      (scriptCode? name).map fun code => .ranges (Script.members code)

/-- The parts before and after the first place where a word stands. -/
def splitAt? (word : List Char) (before : List Char) : List Char → Option (List Char × List Char)
  | [] => none
  | c :: rest =>
    if word.isPrefixOf (c :: rest) then some (before.reverse, (c :: rest).drop word.length)
    else splitAt? word (c :: before) rest

/-- The characters with the property that a name in a pattern says. -/
def property? (name : List Char) : Option CharSet :=
  let parts := (splitAt? ['!', '='] [] name).orElse fun _ =>
    (splitAt? [':'] [] name).orElse fun _ => splitAt? ['='] [] name
  match parts with
  | some (property, value) => valued? property value
  | none => named? name

end Parlance.Pattern.CharSet
