import Mathlib.Data.List.Forall2
import Parlance.Expr.Conversion

/-!
# Typing

`Value.Inhabits` relates values to types: null belongs to the types that admit it, any other value to
its own type, with or without a nullable wrapper. `Expr.Typed` relates expressions to the types of the
parameters in scope; a predicate that names the element of its collection has it in the slot after
those. Types are well formed when nullable wrappers stand only around types that do not admit null;
slots are as they should be whether types are well formed or not.
-/

namespace Parlance

/-! ## Well-formed types -/

namespace ValueType

mutual

/-- Whether nullable wrappers stand only around types that do not admit null. -/
def wellFormed : ValueType → Bool
  | nullable inner => !inner.acceptsNull && wellFormed inner
  | record _ fields => areWellFormed fields
  | collection element => wellFormed element
  | _ => true

/-- Whether the types of all fields are well formed. -/
def areWellFormed : List (String × ValueType) → Bool
  | [] => true
  | (_, type) :: fields => wellFormed type && areWellFormed fields

end

abbrev WellFormed (t : ValueType) : Prop := t.wellFormed = true

variable {t u : ValueType}

theorem areWellFormed_iff {fields : List (String × ValueType)} :
    areWellFormed fields = true ↔ ∀ f ∈ fields, f.2.WellFormed := by
  induction fields with
  | nil => simp [areWellFormed]
  | cons f fields ih => simp [areWellFormed, ih]

theorem numericKind?_eq_some {k : NumericKind} :
    t.numericKind? = some k ↔ t.underlying = .number k := by
  unfold numericKind?
  split <;> simp_all

theorem any_numericKind? {p : NumericKind → Bool} :
    t.numericKind?.any p = true ↔ ∃ k, t.underlying = .number k ∧ p k = true := by
  unfold numericKind?
  split <;> simp_all

theorem enumType?_eq_some {d : EnumType} : t.enumType? = some d ↔ t.underlying = .enum d := by
  unfold enumType?
  split <;> simp_all

theorem element?_eq_some {e : ValueType} :
    t.element? = some e ↔ t.underlying = .collection e := by
  unfold element?
  split <;> simp_all

theorem recordType?_eq_some {r : RecordType} :
    t.recordType? = some r ↔ t.underlying = r.type := by
  unfold recordType?
  split
  · rename_i name fields heq
    rw [heq, Option.some.injEq, RecordType.type, record.injEq]
    cases r
    simp
  · rename_i hne
    simp only [reduceCtorEq, false_iff]
    exact hne _ _

@[simp] theorem wellFormed_nullable :
    (nullable t).WellFormed ↔ t.acceptsNull = false ∧ t.WellFormed := by
  simp [WellFormed, wellFormed]

@[simp] theorem underlying_orNull (t : ValueType) : t.orNull.underlying = t.underlying := by
  cases t <;> rfl

@[simp] theorem acceptsNull_orNull (t : ValueType) : t.orNull.acceptsNull = true := by
  cases t <;> rfl

theorem isNullable_eq_false (h : t.acceptsNull = false) : t.isNullable = false := by
  cases t <;> simp_all [acceptsNull]

theorem underlying_eq_self (h : t.isNullable = false) : t.underlying = t := by
  cases t <;> simp_all [isNullable, underlying]

namespace WellFormed

theorem orNull (h : t.WellFormed) : t.orNull.WellFormed := by
  unfold ValueType.orNull
  split
  · exact h
  · rename_i hnull
    exact wellFormed_nullable.2 ⟨by simpa using hnull, h⟩

theorem underlying (h : t.WellFormed) : t.underlying.WellFormed := by
  cases t with
  | nullable inner => exact (wellFormed_nullable.1 h).2
  | _ => exact h

/-- A nullable wrapper never stands around another one. -/
theorem underlying_underlying (h : t.WellFormed) : t.underlying.underlying = t.underlying := by
  cases t with
  | nullable inner => exact underlying_eq_self (isNullable_eq_false (wellFormed_nullable.1 h).1)
  | _ => rfl

theorem element (h : t.WellFormed) {e : ValueType} (he : t.element? = some e) : e.WellFormed := by
  have := h.underlying
  rwa [element?_eq_some.1 he] at this

theorem field (h : t.WellFormed) {r : RecordType} (hr : t.recordType? = some r)
    {f : String × ValueType} (hf : f ∈ r.fields) : f.2.WellFormed := by
  have := h.underlying
  rw [recordType?_eq_some.1 hr] at this
  exact areWellFormed_iff.1 this f hf

end WellFormed

end ValueType

/-! ## Values of a type -/

namespace Value

mutual

/-- Whether a value belongs to a type. -/
def inhabits : Value → ValueType → Bool
  | null, t => t.acceptsNull
  | record type fields, t => t.underlying = type.type && fieldsInhabit fields type.fields
  | list items, t =>
    match t.element? with
    | some element => itemsInhabit items element
    | none => false
  | v, t => t.underlying = v.type

/-- Whether there is a value for each field, and it belongs to the type of the field. -/
def fieldsInhabit : List Value → List (String × ValueType) → Bool
  | [], [] => true
  | v :: vs, (_, t) :: fields => inhabits v t && fieldsInhabit vs fields
  | _, _ => false

/-- Whether all values belong to a type. -/
def itemsInhabit : List Value → ValueType → Bool
  | [], _ => true
  | v :: vs, t => inhabits v t && itemsInhabit vs t

end

/-- The value belongs to the type. -/
abbrev Inhabits (v : Value) (t : ValueType) : Prop := v.inhabits t = true

variable {v : Value} {t u : ValueType}

theorem itemsInhabit_iff {items : List Value} :
    itemsInhabit items t = true ↔ ∀ v ∈ items, v.Inhabits t := by
  induction items with
  | nil => simp [itemsInhabit]
  | cons v items ih => simp [itemsInhabit, ih]

theorem fieldsInhabit_iff {fields : List Value} {types : List (String × ValueType)} :
    fieldsInhabit fields types = true ↔ List.Forall₂ (fun v f => v.Inhabits f.2) fields types := by
  induction fields generalizing types with
  | nil => cases types <;> simp [fieldsInhabit]
  | cons v fields ih =>
    cases types with
    | nil => simp [fieldsInhabit]
    | cons f types => simp [fieldsInhabit, ih]

theorem underlying_type (v : Value) : v.type.underlying = v.type := by
  cases v <;> rfl

/-- Apart from null, a nullable wrapper adds no values. -/
theorem inhabits_congr (hv : v ≠ .null) (h : t.underlying = u.underlying) :
    v.inhabits t = v.inhabits u := by
  cases v <;> simp_all [inhabits, ValueType.element?]

/-- Whether a value is made of no other values, and is not null. -/
def isScalar (v : Value) : Bool := !v matches null | record .. | list _

theorem inhabits_iff_of_isScalar (hv : v.isScalar = true) : v.Inhabits t ↔ t.underlying = v.type := by
  cases v <;> first | exact decide_eq_true_iff | cases hv

namespace Inhabits

attribute [local simp] Inhabits inhabits Value.type ValueType.element? RecordType.type

theorem acceptsNull (h : Inhabits .null t) : t.acceptsNull = true := by
  rwa [Inhabits, inhabits] at h

/-- A value that is neither null nor a list tells its type but for a nullable wrapper. -/
theorem underlying_eq (h : v.Inhabits t) (hv : v ≠ .null) (hl : ∀ items, v ≠ .list items) :
    t.underlying = v.type := by
  cases v with
  | null => exact absurd rfl hv
  | list items => exact absurd rfl (hl items)
  | record type fields =>
    rw [Inhabits, inhabits, Bool.and_eq_true] at h
    exact of_decide_eq_true h.1
  | _ => exact of_decide_eq_true h

theorem bool (h : v.Inhabits t) (ht : t.underlying = .bool) : v = .null ∨ ∃ b, v = .bool b := by
  cases v <;> simp_all

theorem number (h : v.Inhabits t) {k : NumericKind} (ht : t.underlying = .number k) :
    v = .null ∨ ∃ n, v = .number n ∧ n.kind = k := by
  cases v <;> simp_all

theorem string (h : v.Inhabits t) (ht : t.underlying = .string) : v = .null ∨ ∃ s, v = .string s := by
  cases v <;> simp_all

theorem guid (h : v.Inhabits t) (ht : t.underlying = .guid) : v = .null ∨ ∃ g, v = .guid g := by
  cases v <;> simp_all

theorem enum (h : v.Inhabits t) {d : EnumType} (ht : t.underlying = .enum d) :
    v = .null ∨ ∃ n, v = .enum d n := by
  cases v <;> simp_all

theorem dateTime (h : v.Inhabits t) (ht : t.underlying = .dateTime) :
    v = .null ∨ ∃ m, v = .dateTime m := by
  cases v <;> simp_all

theorem dateTimeOffset (h : v.Inhabits t) (ht : t.underlying = .dateTimeOffset) :
    v = .null ∨ ∃ m, v = .dateTimeOffset m := by
  cases v <;> simp_all

theorem record (h : v.Inhabits t) {r : RecordType} (ht : t.recordType? = some r) :
    v = .null ∨ ∃ fields, v = .record r fields ∧
      List.Forall₂ (fun v f => v.Inhabits f.2) fields r.fields := by
  have hr := ValueType.recordType?_eq_some.1 ht
  cases v with
  | null => exact .inl rfl
  | record type fields =>
    simp only [Inhabits, inhabits, hr, RecordType.type, ValueType.record.injEq, Bool.and_eq_true,
      decide_eq_true_eq] at h
    obtain rfl : r = type := by cases r; cases type; simp_all
    exact .inr ⟨fields, rfl, fieldsInhabit_iff.1 h.2⟩
  | _ => simp_all

theorem list (h : v.Inhabits t) {element : ValueType} (ht : t.element? = some element) :
    v = .null ∨ ∃ items, v = .list items ∧ ∀ x ∈ items, x.Inhabits element := by
  have hc := ValueType.element?_eq_some.1 ht
  cases v with
  | null => exact .inl rfl
  | list items =>
    rw [Inhabits, inhabits, ht] at h
    exact .inr ⟨items, rfl, itemsInhabit_iff.1 h⟩
  | _ => simp_all

end Inhabits

theorem inhabits_list {items : List Value} {element : ValueType} (ht : t.element? = some element)
    (h : ∀ x ∈ items, x.Inhabits element) : Inhabits (.list items) t := by
  rw [Inhabits, inhabits, ht]
  exact itemsInhabit_iff.2 h

end Value

/-! ## Typed expressions -/

/-- A host function that answers arguments of its types with a value of its type, if it does. -/
structure Function.Sound (f : Function) : Prop where
  returns : f.returns.WellFormed
  parameters : ∀ t ∈ f.parameters, t.WellFormed
  body : ∀ {args : List Value} {v : Value}, List.Forall₂ Value.Inhabits args f.parameters →
    f.body args = .ok v → v.Inhabits f.returns

/-- Whether a conversion takes values of one type to another one, unless they are out of range: from
the type of null anything is reached. -/
def ValueType.Converts (source target : ValueType) : Prop :=
  source = .null ∨ source.casts target = true

/-- The expression makes sense where the parameters have these types. If `wf` holds, which it may where
those types are well formed, so are all types in it, and its conversions take values to their targets. -/
inductive Expr.Typed (wf : Prop) : List ValueType → Expr → Prop
  | constant {Γ : List ValueType} {v : Value} {t : ValueType} (value : v.Inhabits t)
      (type : wf → t.WellFormed) : Typed wf Γ (.constant v t)
  | parameter {Γ : List ValueType} {slot : Nat} {name : Option String} {t : ValueType}
      (slot_eq : Γ[slot]? = some t) : Typed wf Γ (.parameter slot name t)
  | field {Γ : List ValueType} {target : Expr} {index : Nat} {name : String} {t : ValueType}
      {r : RecordType} (target_typed : Typed wf Γ target) (record : target.type.recordType? = some r)
      (field_eq : r.fields[index]? = some (name, t)) : Typed wf Γ (.field target index name t)
  | convert {Γ : List ValueType} {operand : Expr} {t : ValueType} (operand_typed : Typed wf Γ operand)
      (converts : wf → operand.type.Converts t) (type : wf → t.WellFormed) : Typed wf Γ (.convert operand t)
  | unary {Γ : List ValueType} {op : UnaryOp} {operand : Expr} (operand_typed : Typed wf Γ operand)
      (accepts : unaryAccepts op operand.type = true) : Typed wf Γ (.unary op operand operand.type)
  | binary {Γ : List ValueType} {op : BinaryOp} {left right : Expr} {t : ValueType}
      (left_typed : Typed wf Γ left) (right_typed : Typed wf Γ right) (types : left.type = right.type)
      (type : binaryType? op left.type = some t) : Typed wf Γ (.binary op left right t)
  | call {Γ : List ValueType} {f : Function} {args : List Expr} (function : f.Sound)
      (args_typed : ∀ e ∈ args, Typed wf Γ e) (types : args.map Expr.type = f.parameters) :
      Typed wf Γ (.call f args)
  | list {Γ : List ValueType} {items : List Expr} (items_typed : ∀ e ∈ items, Typed wf Γ e)
      (types : ∀ e ∈ items, e.type = elementType items ∨
        e.type = .null ∧ (elementType items).acceptsNull = true) : Typed wf Γ (.list items)
  | occupied {Γ : List ValueType} {op : CollectionOp} {source : Expr} {slot : Option Nat}
      {element : ValueType} (source_typed : Typed wf Γ source)
      (element_eq : source.type.element? = some element) (slot_eq : ∀ s ∈ slot, s = Γ.length) :
      Typed wf Γ (.collection op source slot none)
  | quantified {Γ : List ValueType} {op : CollectionOp} {source body : Expr} {element : ValueType}
      (source_typed : Typed wf Γ source) (element_eq : source.type.element? = some element)
      (body_typed : Typed wf Γ body) (type : body.type = .bool) :
      Typed wf Γ (.collection op source none (some body))
  | named {Γ : List ValueType} {op : CollectionOp} {source body : Expr} {element : ValueType}
      (source_typed : Typed wf Γ source) (element_eq : source.type.element? = some element)
      (body_typed : Typed wf (Γ ++ [element]) body) (type : body.type = .bool) :
      Typed wf Γ (.collection op source (some Γ.length) (some body))

end Parlance
