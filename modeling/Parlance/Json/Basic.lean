import Parlance.Binary.Text

/-!
# JSON values and their text

A `Json` number is an integer or a floating-point number; single precision only arises when a value is
written. `compact` writes without blanks, `pretty` with two blanks of indentation per level. Numbers
without a JSON form are written as `null`.
-/

namespace Parlance

/-- A JSON value; the fields of an object are in the order in which they are written. -/
inductive Json where
  | null
  | bool (b : Bool)
  | integer (n : Int)
  | double (x : Float)
  | single (x : Float32)
  | string (s : String)
  | array (items : List Json)
  | object (fields : List (String × Json))

namespace Json

instance : Inhabited Json := ⟨.null⟩

/-- The value of the first field with a name. -/
def field? (name : String) : Json → Option Json
  | .object fields => fields.lookup name
  | _ => none

/-! ## Writing -/

/-- A character as it stands in a JSON string. -/
def escape (c : Char) : List Char :=
  if c = '"' then ['\\', '"']
  else if c = '\\' then ['\\', '\\']
  else if c = '\x08' then ['\\', 'b']
  else if c = '\x0c' then ['\\', 'f']
  else if c = '\n' then ['\\', 'n']
  else if c = '\r' then ['\\', 'r']
  else if c = '\t' then ['\\', 't']
  else if c.toNat < 0x20 then
    ['\\', 'u'] ++ Text.padded 16 4 c.toNat
  else [c]

/-- A text as a JSON string. -/
def quote (s : String) : List Char :=
  '"' :: s.toList.flatMap escape ++ ['"']

/-- The text of a value that holds no other values, if it is one. -/
def scalar? : Json → Option (List Char)
  | .null => some "null".toList
  | .bool b => some (toString b).toList
  | .integer n => some (toString n).toList
  | .double x => some (((Binary.Parts.ofDouble x).printJson? .double).getD "null").toList
  | .single x => some (((Binary.Parts.ofSingle x).printJson? .single).getD "null").toList
  | .string s => some (quote s)
  | .array _ | .object _ => none

mutual

/-- The characters of a value without blanks. -/
def compactChars : Json → List Char
  | .array items => '[' :: compactItems items ++ [']']
  | .object fields => '\x7b' :: compactFields fields ++ ['\x7d']
  | j => (scalar? j).getD []

/-- The items of an array, with commas between them. -/
def compactItems : List Json → List Char
  | [] => []
  | [item] => compactChars item
  | item :: items => compactChars item ++ ',' :: compactItems items

/-- The fields of an object, with commas between them. -/
def compactFields : List (String × Json) → List Char
  | [] => []
  | [(name, value)] => quote name ++ ':' :: compactChars value
  | (name, value) :: fields => quote name ++ ':' :: compactChars value ++ ',' :: compactFields fields

end

/-- The text of a value without blanks. -/
def compact (j : Json) : String := String.ofList j.compactChars

/-- A line break and the blanks at the start of a line. -/
def newline (level : Nat) : List Char := '\n' :: List.replicate (2 * level) ' '

mutual

/-- The characters of a value whose items stand on lines of their own. -/
def prettyChars (level : Nat) : Json → List Char
  | .array [] => ['[', ']']
  | .array items => '[' :: prettyItems (level + 1) items ++ newline level ++ [']']
  | .object [] => ['\x7b', '\x7d']
  | .object fields => '\x7b' :: prettyFields (level + 1) fields ++ newline level ++ ['\x7d']
  | j => (scalar? j).getD []

/-- The lines of the items of an array. -/
def prettyItems (level : Nat) : List Json → List Char
  | [] => []
  | [item] => newline level ++ prettyChars level item
  | item :: items => newline level ++ prettyChars level item ++ ',' :: prettyItems level items

/-- The lines of the fields of an object. -/
def prettyFields (level : Nat) : List (String × Json) → List Char
  | [] => []
  | [(name, value)] => newline level ++ quote name ++ ':' :: ' ' :: prettyChars level value
  | (name, value) :: fields =>
    newline level ++ quote name ++ ':' :: ' ' :: prettyChars level value ++
      ',' :: prettyFields level fields

end

/-- The text of a value with its items on lines of their own. -/
def pretty (j : Json) : String := String.ofList (j.prettyChars 0)

end Json

end Parlance
