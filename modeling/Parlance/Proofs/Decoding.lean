import Parlance.Proofs.Links
import Parlance.Proofs.Operations
import Parlance.Value.Json

/-!
# Values read from JSON

What is read as a value of a well-formed type belongs to the type, and a field that an object lacks is
null. `Value.ofJsonAs` carries a type with its wrapper along with the one to read by; the former is the
latter or the nullable form of it. By a type with two wrappers only null is read
(`ofJson_nullable_nullable`).
-/

namespace Parlance

namespace Value

variable {whole t : ValueType} {j : Json} {v : Value}

/-- The value of a field comes from the object's field with its name, or is null if there is none. -/
def ReadsField (object : Json) (f : String × ValueType) (v : Value) : Prop :=
  match object.field? f.1 with
  | some json => ofJson f.2 json = .ok v
  | none => v = .null ∧ f.2.acceptsNull = true

theorem readsField_of_some {object json : Json} {name : String} (h : object.field? name = some json) :
    ReadsField object (name, t) v ↔ ofJsonAs t t json = .ok v := by
  rw [ReadsField, h]
  rfl

theorem readsField_of_none {object : Json} {name : String} (h : object.field? name = none) :
    ReadsField object (name, t) v ↔ v = .null ∧ t.acceptsNull = true := by
  rw [ReadsField, h]

theorem ofJsonFields_eq_ok {object : Json} {fields : List (String × ValueType)} {vs : List Value} :
    ofJsonFields whole object fields = .ok vs ↔ List.Forall₂ (ReadsField object) fields vs := by
  induction fields generalizing vs with
  | nil =>
    rw [ofJsonFields, List.forall₂_nil_left_iff, Except.ok.injEq]
    exact eq_comm
  | cons f fields ih =>
    obtain ⟨name, type⟩ := f
    rw [ofJsonFields, List.forall₂_cons_left_iff]
    cases hfield : object.field? name with
    | some json =>
      simp only [bind_eq_ok, ih, readsField_of_some hfield, pure, Except.pure]
      grind
    | none =>
      simp only [readsField_of_none hfield]
      split
      · simp only [bind_eq_ok, ih, pure, Except.pure]
        grind
      · simp_all [bind, Except.bind]

/-- A record is read field by field. -/
theorem fields_of_ofJsonAs {name : String} {fields : List (String × ValueType)} {r : RecordType}
    {vs : List Value} (h : ofJsonAs whole (.record name fields) j = .ok (.record r vs)) :
    r = ⟨name, fields⟩ ∧ List.Forall₂ (ReadsField j) fields vs := by
  cases j with
  | null =>
    rw [ofJsonAs] at h
    split at h <;> cases h
  | object entries =>
    obtain ⟨vs, hvs, h⟩ := map_eq_ok.1 h
    cases h
    exact ⟨rfl, ofJsonFields_eq_ok.1 hvs⟩
  | _ => cases h

theorem ofJsonAs_null : ofJsonAs whole t .null =
    if whole.acceptsNull then .ok null else .error (.mismatch whole .null) := by
  rw [ofJsonAs]

/-- One wrapper is taken off a type. -/
theorem ofJsonAs_nullable : ofJsonAs (.nullable t) (.nullable t) j = ofJsonAs (.nullable t) t j := by
  cases j with
  | null => rw [ofJsonAs_null, ofJsonAs_null]
  | _ => rw [ofJsonAs, if_pos rfl]; nofun

/-- Nothing but null is read by a type with a second wrapper. -/
theorem ofJson_nullable_nullable (hj : j ≠ .null) :
    ofJson (.nullable (.nullable t)) j = .error (.mismatch (.nullable (.nullable t)) j) := by
  have hwrappers : ValueType.nullable (.nullable t) ≠ .nullable t := by
    intro h
    have hsize := congrArg sizeOf h
    simp at hsize
  rw [ofJson, ofJsonAs_nullable]
  cases j with
  | null => exact absurd rfl hj
  | _ => rw [ofJsonAs, if_neg hwrappers]; nofun

/-- A number is read by the kind that it converts to. -/
theorem ofJsonAs_number {kind : NumericKind} {n m : Number} (hn : jsonNumber? j = some n)
    (hm : n.convert kind = .ok m) : ofJsonAs whole (.number kind) j = .ok (.number m) := by
  cases j with
  | null => cases hn
  | _ =>
    simp only [ofJsonAs, hn, hm]
    rfl

theorem ofJsonAs_enum {descriptor : EnumType} (h : jsonEnum? descriptor j = some v) :
    ofJsonAs whole (.enum descriptor) j = .ok v := by
  cases j with
  | null => cases h
  | _ => simp only [ofJsonAs, h]

theorem sizeOf_field {name : String} {fields : List (String × ValueType)} {f : String × ValueType}
    (h : f ∈ fields) : sizeOf f.2 < sizeOf (ValueType.record name fields) := by
  have := List.sizeOf_lt_of_mem h
  obtain ⟨field, type⟩ := f
  simp only [ValueType.record.sizeOf_spec, Prod.mk.sizeOf_spec] at this ⊢
  omega

theorem enum_of_jsonEnum? {descriptor : EnumType} (h : jsonEnum? descriptor j = some v) :
    ∃ n, v = .enum descriptor n := by
  unfold jsonEnum? at h
  split at h
  · obtain ⟨n, -, rfl⟩ := Option.map_eq_some_iff.1 h
    exact ⟨n, rfl⟩
  · split at h
    · cases h
      exact ⟨_, rfl⟩
    · cases h
  · cases h

/-- What is read belongs to the type that it is read by. -/
theorem inhabits_of_ofJsonAs {whole t : ValueType} {j : Json} {v : Value}
    (hwhole : whole = t ∨ whole = .nullable t) (hw : whole.WellFormed)
    (h : ofJsonAs whole t j = .ok v) : v.Inhabits whole := by
  induction hn : sizeOf t using Nat.strongRecOn generalizing whole t j v with
  | ind n ih =>
  have hunderlying (ht : t.isNullable = false) : whole.underlying = t := by
    rcases hwhole with rfl | rfl
    · exact ValueType.underlying_eq_self ht
    · rfl
  have hscalar (v : Value) (ht : t.isNullable = false) (hv : v.isScalar = true) (htype : v.type = t) :
      v.Inhabits whole :=
    (inhabits_iff_of_isScalar hv).2 ((hunderlying ht).trans htype.symm)
  unfold ofJsonAs at h
  split at h
  case h_1 =>
    split at h
    · rename_i hnull
      cases h
      rwa [Inhabits, inhabits]
    · cases h
  case h_2 inner j =>
    rcases hwhole with rfl | rfl
    · rw [if_pos rfl] at h
      exact ih (sizeOf inner) (by simp [← hn]) (.inr rfl) hw h rfl
    · cases (ValueType.wellFormed_nullable.1 hw).1
  case h_3 =>
    cases h
    exact hscalar _ rfl rfl rfl
  case h_4 =>
    cases h
    exact hscalar _ rfl rfl rfl
  case h_5 =>
    obtain ⟨m, -, rfl⟩ := map_eq_ok.1 h
    exact hscalar _ rfl rfl rfl
  case h_6 =>
    obtain ⟨m, -, rfl⟩ := map_eq_ok.1 h
    exact hscalar _ rfl rfl rfl
  case h_7 =>
    obtain ⟨g, -, rfl⟩ := map_eq_ok.1 h
    exact hscalar _ rfl rfl rfl
  case h_8 =>
    split at h
    · obtain ⟨n, hn, rfl⟩ := map_eq_ok.1 h
      exact hscalar _ rfl rfl (congrArg ValueType.number (Number.kind_of_convert hn))
    · cases h
  case h_9 descriptor j =>
    split at h
    · rename_i w hv
      cases h
      obtain ⟨n, rfl⟩ := enum_of_jsonEnum? hv
      exact hscalar _ rfl rfl rfl
    · cases h
  case h_10 element items =>
    obtain ⟨vs, hvs, rfl⟩ := map_eq_ok.1 h
    have helement : whole.element? = some element := ValueType.element?_eq_some.2 (hunderlying rfl)
    refine inhabits_list helement fun x hx => ?_
    obtain ⟨item, -, hitem⟩ := (exists_of_forall₂ (mapM_eq_ok.1 hvs)).2 x hx
    exact ih (sizeOf element) (by simp [← hn]) (.inl rfl) (hw.element helement) hitem rfl
  case h_11 name fields entries =>
    obtain ⟨vs, hvs, rfl⟩ := map_eq_ok.1 h
    have hfields := ofJsonFields_eq_ok.1 hvs
    have htype := hunderlying rfl
    have hinner : ∀ f ∈ fields, f.2.WellFormed := by
      have := hw.underlying
      rw [htype] at this
      exact ValueType.areWellFormed_iff.1 this
    rw [Inhabits, inhabits, Bool.and_eq_true, decide_eq_true_eq]
    refine ⟨htype, fieldsInhabit_iff.2 (List.Forall₂.flip ?_)⟩
    refine ((List.forall₂_and_left _ _).2 ⟨fun f hf => hf, hfields⟩).imp ?_
    rintro ⟨name, type⟩ v ⟨hmem, hf⟩
    cases hfield : (Json.object entries).field? name with
    | some json =>
      have hread := (readsField_of_some hfield).1 hf
      exact ih (sizeOf type) (hn ▸ sizeOf_field hmem) (.inl rfl) (hinner _ hmem) hread rfl
    | none =>
      obtain ⟨rfl, hnull⟩ := (readsField_of_none hfield).1 hf
      exact hnull
  case h_12 => cases h

end Value

end Parlance
