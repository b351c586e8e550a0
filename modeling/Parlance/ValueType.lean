import Parlance.NumericKind
import Parlance.Text.Property

/-!
# Types of values

`EnumType` and `RecordType` describe the shapes that a host declares; their checked constructors refuse
a symbol or a field that is declared twice. `ValueType` is the static type of an expression. Strings,
records, collections and the type of the bare null admit null by themselves, any other type through a
nullable wrapper. Equality of types is decidable.
-/

namespace Parlance

/-! ## Enums and records -/

/-- Why a schema cannot be declared. -/
inductive SchemaError where
  | enumUnderlying (name : String) (kind : NumericKind)
  | duplicateMember (owner member : String)
  deriving DecidableEq, Repr

/-- The wording of a schema error. -/
def SchemaError.message : SchemaError → String
  | .enumUnderlying name kind =>
    s!"enum `{name}` cannot be backed by {kind.name}; use an integral kind"
  | .duplicateMember owner member => s!"`{owner}` declares `{member}` more than once"

/-- The first name that already stands earlier in the list. -/
def firstRepeated? (names : List String) : Option String :=
  go [] names
where
  /-- The first name that is among the seen ones or stands earlier in the list. -/
  go (seen : List String) : List String → Option String
    | [] => none
    | name :: rest => if seen.contains name then some name else go (name :: seen) rest

/-- A name, the kind that stands behind it and the values of its symbols. -/
structure EnumType where
  name : String
  underlying : NumericKind
  members : List (String × Int64)
  deriving DecidableEq

namespace EnumType

/-- The enum with these members, if the kind can stand behind one and no symbol is declared twice. -/
def make? (name : String) (underlying : NumericKind) (members : List (String × Int64)) :
    Except SchemaError EnumType :=
  if !underlying.isEnumCompatible then .error (.enumUnderlying name underlying)
  else
    match firstRepeated? (members.map (·.1)) with
    | some symbol => .error (.duplicateMember name symbol)
    | none => .ok ⟨name, underlying, members⟩

/-- Whether a declared symbol answers to a text. -/
def answers (ignoreCase : Bool) (text symbol : String) : Bool :=
  if ignoreCase then Text.eqIgnoreCase symbol text else symbol == text

/-- The value of the first symbol that answers to a text; blanks around the text are ignored. -/
def valueOf? (e : EnumType) (ignoreCase : Bool) (text : String) : Option Int64 :=
  (e.members.find? fun (symbol, _) => answers ignoreCase (Text.trim text) symbol).map (·.2)

/-- The first symbol with a value. -/
def symbolOf? (e : EnumType) (value : Int64) : Option String :=
  (e.members.find? fun (_, v) => v == value).map (·.1)

end EnumType

/-! ## Types -/

/-- The static type of an expression. -/
inductive ValueType where
  | null
  | bool
  | number (kind : NumericKind)
  | string
  | dateTime
  | dateTimeOffset
  | guid
  | enum (descriptor : EnumType)
  | record (name : String) (fields : List (String × ValueType))
  | collection (element : ValueType)
  | nullable (inner : ValueType)
  deriving Inhabited

namespace ValueType

mutual

/-- Whether two types are the same. -/
def same : ValueType → ValueType → Bool
  | null, null | bool, bool | string, string | dateTime, dateTime
  | dateTimeOffset, dateTimeOffset | guid, guid => true
  | number k, number l => k = l
  | enum d, enum e => d = e
  | record n fs, record m gs => n = m && sameFields fs gs
  | collection a, collection b => same a b
  | nullable a, nullable b => same a b
  | _, _ => false

/-- Whether two lists of fields are the same. -/
def sameFields : List (String × ValueType) → List (String × ValueType) → Bool
  | [], [] => true
  | (n, a) :: fs, (m, b) :: gs => n = m && same a b && sameFields fs gs
  | _, _ => false

end

mutual

theorem same_iff : ∀ a b : ValueType, same a b = true ↔ a = b
  | null, b => by cases b <;> simp [same]
  | bool, b => by cases b <;> simp [same]
  | string, b => by cases b <;> simp [same]
  | dateTime, b => by cases b <;> simp [same]
  | dateTimeOffset, b => by cases b <;> simp [same]
  | guid, b => by cases b <;> simp [same]
  | number k, b => by cases b <;> simp [same]
  | enum d, b => by cases b <;> simp [same]
  | record n fs, b => by cases b <;> simp [same, sameFields_iff fs]
  | collection a, b => by cases b <;> simp [same, same_iff a]
  | nullable a, b => by cases b <;> simp [same, same_iff a]

theorem sameFields_iff : ∀ fs gs : List (String × ValueType), sameFields fs gs = true ↔ fs = gs
  | [], gs => by cases gs <;> simp [sameFields]
  | (n, a) :: fs, [] => by simp [sameFields]
  | (n, a) :: fs, (m, b) :: gs => by simp [sameFields, same_iff a, sameFields_iff fs, and_assoc]

end

instance : DecidableEq ValueType := fun a b => decidable_of_iff _ (same_iff a b)

/-! ## Nullability -/

/-- The type without a nullable wrapper. -/
def underlying : ValueType → ValueType
  | nullable inner => inner
  | other => other

/-- Whether the type has a nullable wrapper. -/
def isNullable (t : ValueType) : Bool := t matches nullable _

/-- Types that admit null without a wrapper. -/
def isReferenceLike (t : ValueType) : Bool :=
  t matches null | string | record .. | collection _

/-- Whether null is among the values of the type. -/
def acceptsNull (t : ValueType) : Bool := t.isNullable || t.isReferenceLike

/-- The type with null added to its values; a type that admits null stays as it is. -/
def orNull (t : ValueType) : ValueType := if t.acceptsNull then t else nullable t

/-! ## Views -/

/-- The kind of a number type, nullable or not. -/
def numericKind? (t : ValueType) : Option NumericKind :=
  match t.underlying with
  | number kind => some kind
  | _ => none

/-- The descriptor of an enum type, nullable or not. -/
def enumType? (t : ValueType) : Option EnumType :=
  match t.underlying with
  | enum descriptor => some descriptor
  | _ => none

/-- The element type of a collection type, nullable or not. -/
def element? (t : ValueType) : Option ValueType :=
  match t.underlying with
  | collection element => some element
  | _ => none

/-- Dates with times, with or without an offset, nullable or not. -/
def isTemporal (t : ValueType) : Bool :=
  t.underlying matches dateTime | dateTimeOffset

/-- The written form of a type. -/
def print : ValueType → String
  | null => "null"
  | bool => "bool"
  | number kind => kind.name
  | string => "string"
  | dateTime => "datetime"
  | dateTimeOffset => "datetimeoffset"
  | guid => "guid"
  | enum descriptor => descriptor.name
  | record name _ => name
  | collection element => s!"collection<{element.print}>"
  | nullable inner => s!"{inner.print}?"

end ValueType

/-! ## Record types -/

/-- A name and the named and typed fields of a record. -/
structure RecordType where
  name : String
  fields : List (String × ValueType)
  deriving DecidableEq

/-- A field of a record type, with its place. -/
structure FieldInfo where
  index : Nat
  name : String
  type : ValueType
  deriving DecidableEq

namespace RecordType

/-- The record type with these fields, if none is declared twice. -/
def make? (name : String) (fields : List (String × ValueType)) : Except SchemaError RecordType :=
  match firstRepeated? (fields.map (·.1)) with
  | some field => .error (.duplicateMember name field)
  | none => .ok ⟨name, fields⟩

/-- The type of the records. -/
def type (r : RecordType) : ValueType := .record r.name r.fields

/-- The field at a place. -/
def fieldAt? (r : RecordType) (index : Nat) : Option FieldInfo :=
  r.fields[index]?.map fun (name, type) => ⟨index, name, type⟩

/-- The field with a name: with exactly that name, else the first one up to the case of letters. -/
def field? (r : RecordType) (name : String) : Option FieldInfo :=
  let index := (r.fields.findIdx? fun (field, _) => field == name).orElse fun _ =>
    r.fields.findIdx? fun (field, _) => Text.eqIgnoreCase field name
  index.bind r.fieldAt?

end RecordType

/-- The record type behind a type, nullable or not. -/
def ValueType.recordType? (t : ValueType) : Option RecordType :=
  match t.underlying with
  | record name fields => some ⟨name, fields⟩
  | _ => none

end Parlance
