import Parlance.Pattern.Trait
import Parlance.Text.Script

/-!
# Boundaries in a text

Every character plays a part in where a text divides into graphemes, into words and into sentences.
`CharSet.graphemePart?`, `CharSet.wordPart?` and `CharSet.sentencePart?` give the characters that play
a part by one of its names, which are in lower case and without underscores. A part is made of traits,
categories and scripts with a short list of further characters; no character plays two parts in the
same division.
-/

namespace Parlance.Pattern.CharSet

open Parlance.Text

/-- The characters with the trait of a name. -/
def having (name : String) : CharSet := (trait? name).getD nothing

/-- The characters of some scripts. -/
def ofScripts (codes : List String) : CharSet :=
  unionOf (codes.map fun code => .ranges (Script.members code))

/-- The members of a set that are in none of some others. -/
def without (s : CharSet) (others : List CharSet) : CharSet := .difference s (unionOf others)

/-! ## Parts of several divisions -/

/-- The first half of a line break. -/
def carriageReturn : CharSet := single '\r'

/-- The second half of a line break. -/
def lineFeed : CharSet := single '\n'

/-- The joiner that holds pictures together. -/
def zeroWidthJoiner : CharSet := single '\u200d'

/-- The letters whose pairs are flags. -/
def regionalIndicator : CharSet := having "regionalindicator"

/-- Signs that stand before a number and span it. -/
def numberSign : CharSet := .difference (having "prependedconcatenationmark") (ofLines ["70f"])

/-- Decimal digits, separators inside numbers, and the signs that span them. -/
def numeric : CharSet := unionOf [.digit, numberSign, ofLines ["66b-66c"]]

/-- Full stops. -/
def fullStop : CharSet := ofLines ["2e 2024 fe52 ff0e"]

/-- Characters that attach to the one before them, spacing marks among them. -/
def attached : CharSet := .union graphemeExtend (.categories [.spacingMark])

/-! ## Graphemes -/

/-- Signs and letters that attach to the character after them. -/
def prepended : CharSet :=
  .union (having "prependedconcatenationmark")
    (ofLines ["d4e 111c2-111c3 113d1 1193f 11941 11a3a 11a84-11a89 11d46 11f02"])

/-- Characters that attach to the one before them without a place of their own. -/
def graphemeExtender : CharSet := .union graphemeExtend (having "emojimodifier")

/-- Characters that stand alone whatever is beside them. -/
def graphemeControl : CharSet :=
  without
    (.union (.categories [.lineSeparator, .paragraphSeparator, .control, .format])
      (.intersection (.categories [.unassigned]) (having "defaultignorablecodepoint")))
    [carriageReturn, lineFeed, zeroWidthJoiner, prepended, graphemeExtend]

/-- Marks with a place of their own that attach to the character before them. -/
def graphemeMark : CharSet :=
  without (.union (.categories [.spacingMark]) (ofLines ["e33 eb3"]))
    [graphemeExtender, ofLines
      ["102b-102c 1038 1062-1064 1067-106d 1083 1087-108c 108f 109a-109c 1a61 1a63-1a64 aa7b aa7d",
       "11720-11721"]]

/-- The Korean syllables without a final consonant: every twenty-eighth one. -/
def openSyllable : CharSet :=
  .ranges ((List.range 399).map fun n => (0xac00 + 28 * n, 0xac00 + 28 * n))

/-- The Korean syllables with a final consonant. -/
def closedSyllable : CharSet := .difference (ofLines ["ac00-d7a3"]) openSyllable

/-- The parts in the division into graphemes. -/
def graphemeParts : List (List String × CharSet) :=
  [(["cr"], carriageReturn), (["lf"], lineFeed), (["cn", "control"], graphemeControl),
   (["ex", "extend"], graphemeExtender), (["zwj"], zeroWidthJoiner),
   (["ri", "regionalindicator"], regionalIndicator), (["pp", "prepend"], prepended),
   (["sm", "spacingmark"], graphemeMark), (["l"], ofLines ["1100-115f a960-a97c"]),
   (["v"], ofLines ["1160-11a7 d7b0-d7c6 16d63 16d67-16d6a"]),
   (["t"], ofLines ["11a8-11ff d7cb-d7fb"]), (["lv"], openSyllable), (["lvt"], closedSyllable)]

/-- The characters of a part in the division into graphemes. -/
def graphemePart? (name : String) : Option CharSet := named graphemeParts name

/-! ## Words -/

/-- Formats inside words. -/
def wordFormat : CharSet :=
  without (.categories [.format]) [ofLines ["200b-200d"], graphemeExtend, prepended]

/-- Letters and marks of the syllables that words are written in beside ideographs. -/
def katakana : CharSet :=
  .union (ofScripts ["Kana"]) (ofLines ["3031-3035 309b-309c 30a0 30fc ff70"])

/-- Hebrew letters, which may hold a quotation mark between them. -/
def hebrewLetter : CharSet :=
  .intersection (ofScripts ["Hebr"]) (.categories [.otherLetter])

/-- Characters that attach to the one before them inside words. -/
def wordExtender : CharSet := .union attached (having "emojimodifier")

/-- Letters of words with blanks between them. -/
def wordLetter : CharSet :=
  without
    (.union alphabetic (ofLines
      ["2c2-2c5 2d2-2d7 2de-2df 2e5-2eb 2ed 2ef-2ff 55a-55c 55e 58a 5f3 70f a708-a716 a720-a721",
       "a789-a78a ab5b"]))
    [having "ideographic", katakana, hebrewLetter, wordExtender,
     ofScripts ["Hira", "Thai", "Laoo", "Khmr", "Mymr", "Tale", "Talu", "Lana", "Tavt", "Ahom"]]

/-- The parts in the division into words. -/
def wordParts : List (List String × CharSet) :=
  [(["cr"], carriageReturn), (["lf"], lineFeed), (["nl", "newline"], ofLines ["b-c 85 2028-2029"]),
   (["extend"], wordExtender), (["zwj"], zeroWidthJoiner),
   (["ri", "regionalindicator"], regionalIndicator), (["fo", "format"], wordFormat),
   (["ka", "katakana"], katakana), (["hl", "hebrewletter"], hebrewLetter),
   (["le", "aletter"], wordLetter), (["sq", "singlequote"], ofLines ["27"]),
   (["dq", "doublequote"], ofLines ["22"]),
   (["mb", "midnumlet"], .union fullStop (ofLines ["2018-2019 ff07"])),
   (["ml", "midletter"], ofLines ["3a b7 387 55f 5f4 2027 fe13 fe55 ff1a"]),
   (["mn", "midnum"], ofLines ["2c 3b 37e 589 60c-60d 66c 7f8 2044 fe10 fe14 fe50 fe54 ff0c ff1b"]),
   (["nu", "numeric"], .difference numeric (ofLines ["66c"])),
   (["ex", "extendnumlet"], ofLines ["5f 202f 203f-2040 2054 fe33-fe34 fe4d-fe4f ff3f"]),
   (["wsegspace"], ofLines ["20 1680 2000-2006 2008-200a 205f 3000"])]

/-- The characters of a part in the division into words. -/
def wordPart? (name : String) : Option CharSet := named wordParts name

/-! ## Sentences -/

/-- Separators of paragraphs. -/
def separator : CharSet := ofLines ["85 2028-2029"]

/-- Characters that attach to the one before them inside sentences. -/
def sentenceExtender : CharSet := .union attached zeroWidthJoiner

/-- Small letters but those of a script that has small letters alone in running text. -/
def sentenceLower : CharSet :=
  without (having "lowercase") [graphemeExtend, ofLines ["10d0-10fa 10fd-10ff"]]

/-- Capital letters but those of a script that has small letters alone in running text. -/
def sentenceUpper : CharSet :=
  without (.union (having "uppercase") (.categories [.titlecaseLetter]))
    [ofLines ["1c90-1cba 1cbd-1cbf"]]

/-- Letters that do not show where a sentence starts. -/
def sentenceLetter : CharSet :=
  without (.union alphabetic (ofLines ["5f3"])) [sentenceLower, sentenceUpper, sentenceExtender]

/-- Brackets and quotation marks. -/
def closing : CharSet :=
  .union
    (.categories [.openPunctuation, .closePunctuation, .initialPunctuation, .finalPunctuation])
    (ofLines ["22 27 275b-2760 2e00-2e01 2e06-2e08 2e0b 1f676-1f678"])

/-- The parts in the division into sentences. -/
def sentenceParts : List (List String × CharSet) :=
  [(["cr"], carriageReturn), (["lf"], lineFeed), (["se", "sep"], separator),
   (["ex", "extend"], sentenceExtender),
   (["fo", "format"], without (.categories [.format]) [sentenceExtender, numberSign]),
   (["sp"], without .blank [carriageReturn, lineFeed, separator]),
   (["lo", "lower"], sentenceLower), (["up", "upper"], sentenceUpper),
   (["le", "oletter"], sentenceLetter), (["nu", "numeric"], numeric), (["at", "aterm"], fullStop),
   (["sc", "scontinue"],
    ofLines
     ["2c-2d 3a-3b 37e 55d 60c-60d 7f8 1802 1808 2013-2014 3001 fe10-fe11 fe13-fe14 fe31-fe32",
      "fe50-fe51 fe54-fe55 fe58 fe63 ff0c-ff0d ff1a-ff1b ff64"]),
   (["st", "sterm"], .difference (having "sentenceterminal") fullStop), (["cl", "close"], closing)]

/-- The characters of a part in the division into sentences. -/
def sentencePart? (name : String) : Option CharSet := named sentenceParts name

end Parlance.Pattern.CharSet
