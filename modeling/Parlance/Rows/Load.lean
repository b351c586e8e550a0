import Parlance.Rows.Shape

/-!
# Loading rows

`Rows.load` reads a JSON array of objects as records of one type, which is inferred from all of them.
-/

namespace Parlance

/-- Records with their common type. -/
structure Rows where
  schema : RecordType
  records : List Record

namespace Rows

/-- Whether a JSON value is an object. -/
def isObject (j : Json) : Bool := j matches .object _

/-- The shape of one more row. -/
def addShape (shape : Option Shape) (row : Json) : Except DataError (Option Shape) :=
  if !isObject row then .error .notRows
  else
    match shape with
    | none => .ok (some (Shape.ofJson row))
    | some shape => (Shape.merge "" shape (Shape.ofJson row)).map some

/-- The name of the type of rows. -/
def typeName : String := "Row"

/-- The common type of rows. -/
def schemaOf (rows : List Json) : Except DataError RecordType := do
  let shape ← rows.foldlM addShape none
  let type ← ((shape.getD (.object [])).toType typeName).mapError .schema
  match type.recordType? with
  | some schema => .ok schema
  | none => .error .notRows

/-- A row as a record. -/
def readRow (schema : RecordType) (row : Json) : Except DataError Record := do
  match ← (Value.ofJson schema.type row).mapError .value with
  | .record type fields => .ok ⟨type, fields⟩
  | _ => .error .notRows

/-- The records of a JSON value. -/
def load (j : Json) : Except DataError Rows := do
  match j with
  | .array rows =>
    let schema ← schemaOf rows
    return ⟨schema, ← rows.mapM (readRow schema)⟩
  | _ => .error .notRows

end Rows

end Parlance
