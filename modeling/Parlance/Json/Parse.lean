import Parlance.Json.Numeral

/-!
# Reading JSON texts

A text is cut into tokens, and the tokens are fed one by one to a `Builder`, which keeps the arrays
and objects that are still open. The fields of an object are kept in the order of their names, and of
fields with one name the last stays. At most `depthLimit` arrays and objects may be open at once.
-/

namespace Parlance.Json

/-! ## Tokens -/

/-- A token of a JSON text. -/
inductive Token where
  | openArray | closeArray | openObject | closeObject | comma | colon
  | value (j : Json)

/-- The value of four hexadecimal digits. -/
def hexQuad? (a b c d : Char) : Option Nat :=
  Text.hexValue? [a, b, c, d]

/-- The character that a pair of surrogates stands for. -/
def joinSurrogates? (high low : Nat) : Option Char :=
  if 0xd800 ≤ high && high < 0xdc00 && 0xdc00 ≤ low && low < 0xe000 then
    some (Char.ofNat (0x10000 + (high - 0xd800) * 0x400 + (low - 0xdc00)))
  else none

/-- The character of a single escape, which must not be a surrogate. -/
def ofEscape? (code : Nat) : Option Char :=
  if 0xd800 ≤ code && code < 0xe000 then none else some (Char.ofNat code)

/-- The character that a letter stands for after a backslash. -/
def unescape? : Char → Option Char
  | '"' => some '"'
  | '\\' => some '\\'
  | '/' => some '/'
  | 'b' => some '\x08'
  | 'f' => some '\x0c'
  | 'n' => some '\n'
  | 'r' => some '\r'
  | 't' => some '\t'
  | _ => none

/-- Reads the characters of a string up to its closing quote. -/
def takeString? : List Char → Option (List Char × List Char)
  | [] => none
  | '"' :: rest => some ([], rest)
  | '\\' :: 'u' :: a :: b :: c :: d :: '\\' :: 'u' :: a2 :: b2 :: c2 :: d2 :: rest =>
    match (hexQuad? a b c d).bind ofEscape? with
    | some first =>
      (takeString? ('\\' :: 'u' :: a2 :: b2 :: c2 :: d2 :: rest)).map fun (cs, r) => (first :: cs, r)
    | none =>
      match (hexQuad? a b c d).bind fun high => (hexQuad? a2 b2 c2 d2).bind (joinSurrogates? high) with
      | some c => (takeString? rest).map fun (cs, r) => (c :: cs, r)
      | none => none
  | '\\' :: 'u' :: a :: b :: c :: d :: rest =>
    match (hexQuad? a b c d).bind ofEscape? with
    | some c => (takeString? rest).map fun (cs, r) => (c :: cs, r)
    | none => none
  | '\\' :: c :: rest =>
    match unescape? c with
    | some c => (takeString? rest).map fun (cs, r) => (c :: cs, r)
    | none => none
  | c :: rest =>
    if c = '\\' || c.toNat < 0x20 then none
    else (takeString? rest).map fun (cs, r) => (c :: cs, r)

/-- The blanks of JSON texts. -/
def isBlank (c : Char) : Bool := c == ' ' || c == '\n' || c == '\t' || c == '\r'

/-- Reads one token. -/
def takeToken? : List Char → Option (Token × List Char)
  | '[' :: rest => some (.openArray, rest)
  | ']' :: rest => some (.closeArray, rest)
  | '\x7b' :: rest => some (.openObject, rest)
  | '\x7d' :: rest => some (.closeObject, rest)
  | ',' :: rest => some (.comma, rest)
  | ':' :: rest => some (.colon, rest)
  | '"' :: rest => (takeString? rest).map fun (cs, r) => (.value (.string (String.ofList cs)), r)
  | 'n' :: 'u' :: 'l' :: 'l' :: rest => some (.value .null, rest)
  | 't' :: 'r' :: 'u' :: 'e' :: rest => some (.value (.bool true), rest)
  | 'f' :: 'a' :: 'l' :: 's' :: 'e' :: rest => some (.value (.bool false), rest)
  | cs => (takeNumeral? cs).map fun (j, r) => (.value j, r)

/-- Cuts a text into tokens. Every token takes a character, so `fuel` need not exceed their number. -/
def tokensWithin? (fuel : Nat) (cs : List Char) : Option (List Token) :=
  match fuel, cs.dropWhile isBlank with
  | _, [] => some []
  | 0, _ => none
  | fuel + 1, cs => do
    let (token, rest) ← takeToken? cs
    return token :: (← tokensWithin? fuel rest)

/-- Cuts a text into tokens. -/
def tokens? (cs : List Char) : Option (List Token) := tokensWithin? cs.length cs

/-! ## Building -/

/-- An array or object that is still open; an object keeps the name whose value comes next. -/
inductive Frame where
  | array (items : List Json)
  | object (fields : List (String × Json)) (name : String)

/-- What the next token may be. -/
inductive Expected where
  | value
  | itemOrClose
  | name (mayClose : Bool)
  | colon
  | separator

/-- The open arrays and objects, innermost first, and what comes next; `result` once a value is
complete at the outermost level. -/
structure Builder where
  frames : List Frame
  expected : Expected
  result : Option Json

namespace Builder

/-- The most arrays and objects that may be open at once. -/
def depthLimit : Nat := 127

/-- Before the first token. -/
def start : Builder := ⟨[], .value, none⟩

/-- Puts a field at its place in the order of names, instead of one with its name. -/
def insertField (name : String) (value : Json) : List (String × Json) → List (String × Json)
  | [] => [(name, value)]
  | (other, old) :: rest =>
    if name < other then (name, value) :: (other, old) :: rest
    else if name = other then (name, value) :: rest
    else (other, old) :: insertField name value rest

/-- A complete value goes into the innermost open array or object. -/
def complete (j : Json) : List Frame → Builder
  | [] => ⟨[], .separator, some j⟩
  | .array items :: frames => ⟨.array (j :: items) :: frames, .separator, none⟩
  | .object fields name :: frames =>
    ⟨.object (insertField name j fields) name :: frames, .separator, none⟩

/-- Opens an array or object where a value may stand. -/
def enter? (b : Builder) (frame : Frame) (expected : Expected) : Option Builder :=
  if b.frames.length < depthLimit then some ⟨frame :: b.frames, expected, none⟩ else none

/-- Takes a token. -/
def step? (b : Builder) (token : Token) : Option Builder :=
  match b.expected, token, b.frames with
  | .value, .openArray, _ | .itemOrClose, .openArray, _ => b.enter? (.array []) .itemOrClose
  | .value, .openObject, _ | .itemOrClose, .openObject, _ => b.enter? (.object [] "") (.name true)
  | .value, .value j, frames | .itemOrClose, .value j, frames => some (complete j frames)
  | .name _, .value (.string name), .object fields _ :: frames =>
    some ⟨.object fields name :: frames, .colon, none⟩
  | .colon, .colon, frames => some ⟨frames, .value, none⟩
  | .separator, .comma, .array items :: frames => some ⟨.array items :: frames, .value, none⟩
  | .separator, .comma, .object fields name :: frames =>
    some ⟨.object fields name :: frames, .name false, none⟩
  | .itemOrClose, .closeArray, .array items :: frames
  | .separator, .closeArray, .array items :: frames => some (complete (.array items.reverse) frames)
  | .name true, .closeObject, .object fields _ :: frames
  | .separator, .closeObject, .object fields _ :: frames => some (complete (.object fields) frames)
  | _, _, _ => none

end Builder

/-- Reads a JSON text. -/
def parse? (text : String) : Option Json := do
  let tokens ← tokens? text.toList
  let b ← tokens.foldlM Builder.step? Builder.start
  b.result

end Parlance.Json
