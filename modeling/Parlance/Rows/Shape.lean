import Parlance.Extent
import Parlance.Json.Parse
import Parlance.Value.Json

/-!
# Shapes of JSON data

A `Shape` is what is known of the type of a place in JSON data after some of its values have been seen.
`Shape.merge` joins what two values show: integers give way to decimals, literals of different kinds
become plain strings, a value that is null or absent makes the place optional, and all other
differences are conflicts. The fields of an object stay in the order in which they were first seen.
-/

namespace Parlance

/-- Why data has no common type or does not fit it. -/
inductive DataError where
  | notRows
  | conflict (field first second : String)
  | schema (error : SchemaError)
  | value (error : ValueError)

/-- The wording of a data error. -/
def DataError.message : DataError → String
  | .notRows => "expected a JSON array of objects"
  | .conflict field first second => s!"field `{field}` holds both {first} and {second} values"
  | .schema error => error.message
  | .value error => error.message

/-- What is known of the type of a place. -/
inductive Shape where
  | unknown
  | null
  | bool
  | integer
  | decimal
  | string
  | dateTime
  | dateTimeOffset
  | guid
  | list (element : Shape)
  | object (fields : List (String × Shape))
  | optional (inner : Shape)
  deriving Inhabited

namespace Shape

/-- The kind of JSON value that a shape describes. -/
def describe : Shape → String
  | unknown | null => "null"
  | bool => "boolean"
  | integer | decimal => "number"
  | string | dateTime | dateTimeOffset | guid => "string"
  | list _ => "array"
  | object _ => "object"
  | optional inner => inner.describe

/-- Shapes of JSON strings. -/
def isText (s : Shape) : Bool := s matches string | dateTime | dateTimeOffset | guid

/-- The shape with null added. -/
def orNull : Shape → Shape
  | unknown => unknown
  | null => null
  | optional inner => optional inner
  | other => optional other

/-- The path of a field of the object at a path. -/
def join (path name : String) : String := if path.isEmpty then name else s!"{path}/{name}"

/-- The fields of two objects: those of the first with what the common ones have merged to, then those
that only the second has. A field that one of the two lacks is optional. -/
def joinFields (fields others merged : List (String × Shape)) : List (String × Shape) :=
  fields.map (fun (name, shape) => (name, (merged.lookup name).getD shape.orNull)) ++
  (others.filter fun (name, _) => (fields.lookup name).isNone).map fun (name, shape) =>
    (name, shape.orNull)

theorem sizeOf_lookup {fields : List (String × Shape)} {name : String} {s : Shape}
    (h : fields.lookup name = some s) : sizeOf s < sizeOf fields := by
  induction fields with
  | nil => simp at h
  | cons field fields ih =>
    obtain ⟨other, t⟩ := field
    rw [List.lookup_cons] at h
    split at h
    · cases h
      simp
      omega
    · have := ih h
      simp
      omega

mutual

/-- What two shapes show together; `path` leads to their place. -/
def merge (path : String) (a b : Shape) : Except DataError Shape :=
  match a, b with
  | unknown, b => .ok b
  | a, unknown => .ok a
  | null, b => .ok b.orNull
  | a, null => .ok a.orNull
  | optional a, b => do return (← merge path a b).orNull
  | a, optional b => do return (← merge path b a).orNull
  | integer, decimal | decimal, integer => .ok decimal
  | list a, list b => do return list (← merge path a b)
  | object fields, object others => do
    return object (joinFields fields others (← mergeCommon path fields others))
  | bool, bool => .ok bool
  | integer, integer => .ok integer
  | decimal, decimal => .ok decimal
  | dateTime, dateTime => .ok dateTime
  | dateTimeOffset, dateTimeOffset => .ok dateTimeOffset
  | guid, guid => .ok guid
  | a, b =>
    if a.isText && b.isText then .ok string else .error (.conflict path a.describe b.describe)
termination_by sizeOf a + sizeOf b
decreasing_by all_goals (simp; try omega)

/-- What the fields that two objects have in common merge to, in the order of the second one. -/
def mergeCommon (path : String) (fields : List (String × Shape)) (others : List (String × Shape)) :
    Except DataError (List (String × Shape)) :=
  match others with
  | [] => .ok []
  | (name, shape) :: others =>
    match _h : fields.lookup name with
    | some current => do
      let first ← merge (join path name) current shape
      return (name, first) :: (← mergeCommon path fields others)
    | none => mergeCommon path fields others
termination_by sizeOf fields + sizeOf others
decreasing_by
  · have := sizeOf_lookup _h
    simp only [List.cons.sizeOf_spec, Prod.mk.sizeOf_spec]
    omega
  · simp only [List.cons.sizeOf_spec, Prod.mk.sizeOf_spec]
    omega
  · simp only [List.cons.sizeOf_spec, Prod.mk.sizeOf_spec]
    omega

end

/-- The shape of a JSON string: a timestamp with an offset, one without, a guid with dashes, or any
text. -/
def ofText (text : String) : Shape :=
  if (Calendar.parseTimestamp? text).isSome then dateTimeOffset
  else if (Calendar.parseMomentAs? Calendar.localLayout text).isSome then dateTime
  else if Text.byteLength text.toList = 36 && (Guid.parse? text).isSome then guid
  else string

/-- What the elements of a list show together; an element that conflicts with those before it shows
nothing. -/
def ofElements : List Shape → Shape
  | [] => unknown
  | first :: rest => rest.foldl (fun shape next => (merge "" shape next).toOption.getD shape) first

mutual

/-- The shape of one JSON value. -/
def ofJson : Json → Shape
  | .null => null
  | .bool _ => bool
  | .integer _ => integer
  | .double _ | .single _ => decimal
  | .string text => ofText text
  | .array items => list (ofElements (ofItems items))
  | .object fields => object (ofFields fields)

/-- The shapes of the items of an array. -/
def ofItems : List Json → List Shape
  | [] => []
  | item :: items => ofJson item :: ofItems items

/-- The shapes of the fields of an object. -/
def ofFields : List (String × Json) → List (String × Shape)
  | [] => []
  | (name, value) :: fields => (name, ofJson value) :: ofFields fields

end

mutual

/-- The type of a place; `name` is that of its records. -/
def toType (name : String) : Shape → Except SchemaError ValueType
  | unknown | null | string => .ok .string
  | bool => .ok .bool
  | integer => .ok (.number .long)
  | decimal => .ok (.number .decimal)
  | dateTime => .ok .dateTime
  | dateTimeOffset => .ok .dateTimeOffset
  | guid => .ok .guid
  | list element => do return .collection (← toType name element)
  | object fields => do return (← RecordType.make? name (← toTypes fields)).type
  | optional inner => do return (← toType name inner).orNull

/-- The types of fields. -/
def toTypes : List (String × Shape) → Except SchemaError (List (String × ValueType))
  | [] => .ok []
  | (name, shape) :: fields => do
    let first ← toType name shape
    return (name, first) :: (← toTypes fields)

end

end Shape

end Parlance
