import Parlance.Proofs.Decoding
import Parlance.Proofs.Literals
import Parlance.Proofs.Parts

/-!
# Shapes and what they are taken from

A shape shows kinds of JSON values on paths (`Shape.Shows`) and covers the values that its type can be
read from (`Shape.Covers`).
-/

namespace Parlance

namespace Shape

open Json (Step Kind)

/-! ## What shapes show -/

/-- Induction on shapes, by the elements of lists and the fields of objects. -/
@[elab_as_elim]
theorem ind {motive : Shape → Prop}
    (simple : ∀ s : Shape, (s matches list _ | object _ | optional _) = false → motive s)
    (list : ∀ element, motive element → motive (list element))
    (object : ∀ fields, (∀ f ∈ fields, motive f.2) → motive (object fields))
    (optional : ∀ inner, motive inner → motive (optional inner)) (s : Shape) : motive s := by
  induction hn : sizeOf s using Nat.strongRecOn generalizing s with
  | ind n ih =>
  cases s with
  | list element => exact list element (ih _ (by simp [← hn]) element rfl)
  | optional inner => exact optional inner (ih _ (by simp [← hn]) inner rfl)
  | object fields =>
    refine object fields fun f hf => ih _ ?_ f.2 rfl
    have := List.sizeOf_lt_of_mem hf
    obtain ⟨name, value⟩ := f
    simp only [Shape.object.sizeOf_spec, Prod.mk.sizeOf_spec] at hn this
    simp only
    omega
  | _ => exact simple _ rfl

/-- A shape shows the kind of a place, and the kinds of what is within it. -/
inductive Shows : Shape → List Step → Kind → Prop
  | bool : Shows bool [] .boolean
  | integer : Shows integer [] .number
  | decimal : Shows decimal [] .number
  | text {s : Shape} (h : s.isText = true) : Shows s [] .string
  | list {element : Shape} : Shows (list element) [] .array
  | element {element : Shape} {path : List Step} {k : Kind} (h : Shows element path k) :
      Shows (list element) (.element :: path) k
  | object {fields : List (String × Shape)} : Shows (object fields) [] .object
  | field {fields : List (String × Shape)} {name : String} {s : Shape} {path : List Step} {k : Kind}
      (lookup : fields.lookup name = some s) (h : Shows s path k) :
      Shows (object fields) (.field name :: path) k
  | optional {inner : Shape} {path : List Step} {k : Kind} (h : Shows inner path k) :
      Shows (optional inner) path k

/-- Whether null is among the values that a shape stands for. -/
def admitsNull (s : Shape) : Bool := s matches null | string | list _ | object _ | optional _

mutual

/-- No object has two fields of one name, and only of the elements of a list nothing may be known. -/
def WellFormed : Shape → Prop
  | list element => WellFormed element
  | object fields => (fields.map (·.1)).Nodup ∧ AreWellFormed fields
  | optional inner => inner ≠ unknown ∧ WellFormed inner
  | _ => True

/-- Something is known of all fields, and it is well formed. -/
def AreWellFormed : List (String × Shape) → Prop
  | [] => True
  | (_, s) :: fields => (s ≠ unknown ∧ WellFormed s) ∧ AreWellFormed fields

end

theorem areWellFormed_iff {fields : List (String × Shape)} :
    AreWellFormed fields ↔ ∀ f ∈ fields, f.2 ≠ unknown ∧ f.2.WellFormed := by
  induction fields with
  | nil => simp [AreWellFormed]
  | cons f fields ih => simp [AreWellFormed, ih]

theorem WellFormed.field {fields : List (String × Shape)} (h : (object fields).WellFormed)
    {name : String} {s : Shape} (hs : fields.lookup name = some s) : s ≠ unknown ∧ s.WellFormed :=
  areWellFormed_iff.1 h.2 _ (mem_of_lookup hs)

/-- The values that the type of a shape can be read from. -/
inductive Covers : Shape → Json → Prop
  | null {s : Shape} (h : s.admitsNull = true) : Covers s .null
  | bool {b : Bool} : Covers bool (.bool b)
  | integer {n : Int} (h : NumericKind.long.Holds n) : Covers integer (.integer n)
  | whole {n : Int} (h : NumericKind.long.Holds n) : Covers decimal (.integer n)
  | decimal {x : Float} (h : Decimal.spans x = true) : Covers decimal (.double x)
  | string {text : String} : Covers string (.string text)
  | dateTime {text : String}
      (h : (Calendar.parseMomentAs? Calendar.localLayout text).isSome = true) :
      Covers dateTime (.string text)
  | dateTimeOffset {text : String} (h : (Calendar.parseTimestamp? text).isSome = true) :
      Covers dateTimeOffset (.string text)
  | guid {text : String} (h : (Guid.parse? text).isSome = true) : Covers guid (.string text)
  | list {element : Shape} {items : List Json} (h : ∀ item ∈ items, Covers element item) :
      Covers (list element) (.array items)
  | object {shapes : List (String × Shape)} {fields : List (String × Json)}
      (known : ∀ {name : String} {value : Json}, fields.lookup name = some value →
        ∃ s, shapes.lookup name = some s)
      (held : ∀ {name : String} {value : Json} {s : Shape}, fields.lookup name = some value →
        shapes.lookup name = some s → Covers s value)
      (absent : ∀ {name : String} {s : Shape}, fields.lookup name = none →
        shapes.lookup name = some s → s.admitsNull = true) :
      Covers (object shapes) (.object fields)
  | optional {inner : Shape} {j : Json} (h : Covers inner j) : Covers (optional inner) j

variable {s a b c : Shape} {j : Json} {path : List Step} {k l : Kind}

theorem shows_orNull : s.orNull.Shows path k ↔ s.Shows path k := by
  unfold orNull
  split
  · rfl
  · rfl
  · rfl
  · constructor
    · rintro (_ | _ | _ | _ | _ | _ | _ | _ | h)
      · simp_all [isText]
      · assumption
    · exact .optional

theorem orNull_eq_unknown : s.orNull = unknown ↔ s = unknown := by
  cases s <;> simp [Shape.orNull]

theorem admitsNull_orNull (h : s ≠ unknown) : s.orNull.admitsNull = true := by
  cases s <;> first | rfl | exact absurd rfl h

theorem WellFormed.orNull (h : s.WellFormed) : s.orNull.WellFormed := by
  unfold Shape.orNull
  split
  · exact h
  · exact h
  · exact h
  · rename_i hne _ _
    exact ⟨hne, h⟩

theorem Covers.orNull (h : s.Covers j) : s.orNull.Covers j := by
  unfold Shape.orNull
  split
  · exact h
  · exact h
  · exact h
  · exact .optional h

theorem not_covers_unknown : ¬ unknown.Covers j := by
  rintro (h | _)
  cases h

end Shape

end Parlance
