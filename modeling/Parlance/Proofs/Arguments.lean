import Parlance.Proofs.Coercion
import Parlance.Proofs.Overloads

/-!
# The types of converted arguments

An argument that is converted to a declared type has that type, so that a function takes the arguments
that have been converted for it. There is one exception: a text that is not written as null but comes to
null is made a null of the enum that is declared, and that has a nullable type also where the declared
type admits no null (`Expr.Vanishes`). The call is then refused (`arguments_typed`).
-/

namespace Parlance

namespace ValueType

variable {t u : ValueType} {d : EnumType}

theorem orNull_ne (h : t.acceptsNull = false) : t.orNull ≠ t := by
  intro heq
  have hnull := acceptsNull_orNull t
  rw [heq, h] at hnull
  cases hnull

theorem orNull_eq_self (h : t.acceptsNull = true) : t.orNull = t := by
  rw [orNull, if_pos h]

theorem eq_enum (hd : t.underlying = .enum d) (hnull : t.acceptsNull = false) : t = .enum d := by
  rwa [underlying_eq_self (isNullable_eq_false hnull)] at hd

end ValueType

/-! ## Single arguments -/

namespace Expr

/-- The expression is a text that comes to null without being a null constant, where the type is an enum
that admits no null. -/
structure Vanishes (e : Expr) (t : ValueType) : Prop where
  target : ∃ d, t = .enum d
  text : e.type.underlying = .string
  unwritten : e.isNull = false
  closed : e.isClosed = true
  null : e.value [] = .ok .null

variable {e c : Expr} {t : ValueType} {d : EnumType}

/-- Such a text is converted to a null whose type admits null. -/
theorem Vanishes.convertTo (h : e.Vanishes t) :
    e.convertTo t = .ok (some (.constant .null t.orNull)) := by
  obtain ⟨⟨d, rfl⟩, text, unwritten, closed, hnull⟩ := h
  have hne : e.type ≠ .enum d := by
    intro heq
    rw [heq] at text
    cases text
  have hne' : e.type.orNull ≠ .enum d := by
    intro heq
    have hu := ValueType.underlying_orNull e.type
    rw [heq, text] at hu
    cases hu
  have henum : e.enumConstant d (.enum d) true = .ok (.constant .null (ValueType.enum d).orNull) := by
    rw [enumConstant, closed, hnull, ← null_converted_orNull rfl]
    rfl
  rw [Expr.convertTo, if_neg hne, unwritten, if_neg Bool.false_ne_true, if_neg hne', text]
  exact congrArg (Except.map some) henum

/-- A text taken as a member of an enum has the type that is asked for, unless it vanishes. -/
theorem type_enumConstant (hstring : e.type.underlying = .string) (hwritten : e.isNull = false)
    (hd : t.underlying = .enum d) (h : e.enumConstant d t true = .ok c) :
    c.type = t ∨ e.Vanishes t := by
  unfold enumConstant at h
  split at h
  · cases h
  rename_i hclosed
  split at h
  · cases h
  · split at h
    · cases h
      exact .inl (type_converted _ t)
    · cases h
  · rename_i hnull
    cases h
    rw [type_converted]
    cases ht : t.acceptsNull with
    | true => exact .inl (ValueType.orNull_eq_self ht)
    | false =>
      exact .inr ⟨⟨d, ValueType.eq_enum hd ht⟩, hstring, hwritten, by simpa using hclosed, hnull⟩
  · cases h

theorem type_or_vanishes (h : e.convertTo t = .ok (some c)) : c.type = t ∨ e.Vanishes t := by
  unfold Expr.convertTo at h
  split at h
  · rename_i ht
    cases h
    exact .inl ht
  split at h
  · split at h
    · cases h
      exact .inl (type_converted e t)
    · cases h
  rename_i hwritten
  split at h
  · cases h
    exact .inl (type_converted e t)
  split at h
  · rename_i d hstring hd
    obtain ⟨x, hx, hxc⟩ := map_eq_ok.1 h
    cases hxc
    exact type_enumConstant hstring (Bool.eq_false_iff.2 hwritten) hd hx
  · split at h
    · cases h
      exact .inl (type_converted e t)
    · cases h

theorem Vanishes.type_ne (h : e.Vanishes t) (hc : e.convertTo t = .ok (some c)) : c.type ≠ t := by
  rw [h.convertTo] at hc
  cases hc
  obtain ⟨d, rfl⟩ := h.target
  exact ValueType.orNull_ne rfl

/-- An argument has the type it was converted to exactly if it is no text that vanishes. -/
theorem type_eq_iff (h : e.convertTo t = .ok (some c)) : c.type = t ↔ ¬ e.Vanishes t :=
  ⟨fun hc hv => hv.type_ne h hc, (type_or_vanishes h).resolve_right⟩

end Expr

/-! ## Lists of arguments -/

variable {exprs args : List Expr} {types : List ValueType}

theorem Converted.types_iff (h : Converted exprs types args) :
    args.map Expr.type = types ↔ List.Forall₂ (fun e t => ¬ e.Vanishes t) exprs types := by
  induction h with
  | nil => simp
  | cons head _ ih =>
    rw [List.map_cons, List.cons.injEq, List.forall₂_cons, ih, Expr.type_eq_iff head]

theorem Expr.firstMistyped?_types (name : String) (index : Nat) (args : List Expr) :
    firstMistyped? name index (args.map type) args = none := by
  induction args generalizing index with
  | nil => rfl
  | cons e args ih =>
    rw [List.map_cons, firstMistyped?, if_pos rfl]
    exact ih (index + 1)

/-- A function takes exactly the arguments that have the types of its parameters. -/
theorem Expr.exists_call?_iff {f : Function} :
    (∃ x, call? f args = .ok x) ↔ args.map type = f.parameters := by
  unfold call?
  constructor
  · rintro ⟨x, hx⟩
    split at hx
    · cases hx
    rename_i hlength
    split at hx
    · cases hx
    · rename_i hnone
      exact types_of_firstMistyped? (by simpa using hlength) hnone
  · intro h
    rw [← h, List.length_map, if_neg (fun hne => hne rfl), firstMistyped?_types]
    exact ⟨_, rfl⟩

/-- An argument that is converted to a type has that type, unless it is a text that vanishes; such a text
is converted, to a null of another type. A function whose parameters the arguments of a call have been
converted to takes them exactly if none of them vanishes. -/
theorem arguments_typed (e c : Expr) (t : ValueType) (f : Function) (contents : List Operand)
    (args : List Expr) :
    (e.convertTo t = .ok (some c) → (c.type = t ↔ ¬ e.Vanishes t)) ∧
    (e.Vanishes t → e.convertTo t = .ok (some (.constant .null t.orNull)) ∧ t.orNull ≠ t) ∧
    ((Overload.ofFunction f).accepts contents.length = true →
      (Overload.ofFunction f).convert contents = .ok (.ok args) →
        ((∃ x, Expr.call? f args = .ok x) ↔
          List.Forall₂ (fun x t => ¬ x.expr.Vanishes t) contents f.parameters)) := by
  refine ⟨Expr.type_eq_iff, fun h => ⟨h.convertTo, ?_⟩, fun haccepts hconvert => ?_⟩
  · obtain ⟨d, rfl⟩ := h.target
    exact ValueType.orNull_ne rfl
  · have hlength : f.parameters.length = contents.length := by
      simpa [Overload.accepts, Overload.arity?, Overload.ofFunction] using haccepts
    have hconverted : Converted (contents.map Operand.expr) f.parameters args :=
      converted_of_convertArgs hlength.symm hconvert
    rw [Expr.exists_call?_iff, hconverted.types_iff, List.forall₂_map_left_iff]

/-! ## A text that comes to null -/

/-- A function without parameters whose text is null. -/
def noText : Function := ⟨"none", [], .string, fun _ => .ok .null⟩

/-- A function of a colour. -/
def paint : Function := ⟨"paint", [colourType], .bool, fun _ => .ok (.bool true)⟩

/-- The call of the function that has no text. -/
def blankText : Expr := .call noText []

theorem vanishes_blankText : blankText.Vanishes colourType where
  target := ⟨_, rfl⟩
  text := rfl
  unwritten := rfl
  closed := rfl
  null := rfl

/-- Made a colour, the text has the type of colours that may be null, and a function of a colour does not
take it. -/
theorem not_typed_blankText :
    Expr.call? noText [] = .ok blankText ∧
      blankText.convertTo colourType = .ok (some (.constant .null (.nullable colourType))) ∧
      (Expr.constant .null (.nullable colourType)).type ≠ colourType ∧
      Expr.call? paint [.constant .null (.nullable colourType)] =
        .error (.argumentType "paint" 0 colourType (.nullable colourType)) :=
  ⟨rfl, vanishes_blankText.convertTo, nofun, rfl⟩

/-- The name of a colour. -/
def redText : Operand := ⟨.ofValue (.string "red"), ⟨6, 11⟩⟩

/-- The colour of that name. -/
def red : Expr := .ofValue (.enum ⟨"Colour", .int, [("Red", 1)]⟩ 1)

/-- A text that is the name of a colour becomes that colour, which the function takes. -/
theorem arguments_typed_red :
    (Overload.ofFunction paint).accepts [redText].length = true ∧
      (Overload.ofFunction paint).convert [redText] = .ok (.ok [red]) ∧
      (∃ x, Expr.call? paint [red] = .ok x) ∧ red.type = colourType ∧
      blankText.convertTo colourType = .ok (some (.constant .null colourType.orNull)) := by
  have hconvert : (Overload.ofFunction paint).convert [redText] = .ok (.ok [red]) := rfl
  have hred : ¬ redText.expr.Vanishes colourType := fun h => by cases h.null
  obtain ⟨htype, -, hcall⟩ := arguments_typed redText.expr red colourType paint [redText] [red]
  have hblank := (arguments_typed blankText red colourType paint [] []).2.1 vanishes_blankText
  exact ⟨rfl, hconvert, (hcall rfl hconvert).2 (.cons hred .nil), (htype rfl).2 hred, hblank.1⟩

end Parlance
