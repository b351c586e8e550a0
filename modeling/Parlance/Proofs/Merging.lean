import Parlance.Proofs.Shapes

/-!
# Merged shapes

`Shape.Merged` is what `Shape.merge` can give; every property of a merge goes by induction on it. A
merge fails only on a conflict, for which the two shapes show different kinds on one path.
-/

namespace Parlance.Shape

open Json (Step Kind)

variable {s a b c : Shape} {j : Json} {path : List Step} {k l : Kind} {name : String}
  {fields others results merged : List (String × Shape)}

/-! ## The merge as a relation -/

/-- How the fields of two objects come together: a field that only one of them has is optional. -/
structure Joins (fields others results : List (String × Shape)) : Prop where
  left {name : String} {a : Shape} : fields.lookup name = some a → others.lookup name = none →
    results.lookup name = some a.orNull
  right {name : String} {b : Shape} : fields.lookup name = none → others.lookup name = some b →
    results.lookup name = some b.orNull
  neither {name : String} : fields.lookup name = none → others.lookup name = none →
    results.lookup name = none
  nodup : (fields.map (·.1)).Nodup → (others.map (·.1)).Nodup → (results.map (·.1)).Nodup

/-- A field of the result is one of the first object only, one of the second only, or of both. -/
theorem Joins.of_lookup (h : Joins fields others results) (hs : results.lookup name = some s) :
    (∃ a, fields.lookup name = some a ∧ others.lookup name = none ∧ s = a.orNull) ∨
      (∃ b, fields.lookup name = none ∧ others.lookup name = some b ∧ s = b.orNull) ∨
      ∃ a b, fields.lookup name = some a ∧ others.lookup name = some b := by
  cases ha : fields.lookup name with
  | none =>
    cases hb : others.lookup name with
    | none =>
      rw [h.neither ha hb] at hs
      cases hs
    | some b =>
      rw [h.right ha hb] at hs
      cases hs
      exact .inr (.inl ⟨b, rfl, rfl, rfl⟩)
  | some a =>
    cases hb : others.lookup name with
    | none =>
      rw [h.left ha hb] at hs
      cases hs
      exact .inl ⟨a, rfl, rfl, rfl⟩
    | some b => exact .inr (.inr ⟨a, b, rfl, rfl⟩)

/-- What two shapes may merge to. -/
inductive Merged : Shape → Shape → Shape → Prop
  | unknown_left {b : Shape} : Merged unknown b b
  | unknown_right {a : Shape} : Merged a unknown a
  | null_left {b : Shape} (h : b ≠ unknown) : Merged null b b.orNull
  | null_right {a : Shape} (h : a ≠ unknown) : Merged a null a.orNull
  | optional_left {a b c : Shape} (h : Merged a b c) : Merged (optional a) b c.orNull
  | optional_right {a b c : Shape} (h : Merged b a c) : Merged a (optional b) c.orNull
  | whole_left : Merged integer decimal decimal
  | whole_right : Merged decimal integer decimal
  | same {a : Shape} : Merged a a a
  | texts {a b : Shape} (left : a.isText = true) (right : b.isText = true) (ne : a ≠ b) :
      Merged a b string
  | list {a b c : Shape} (h : Merged a b c) : Merged (list a) (list b) (list c)
  | object {fields others results : List (String × Shape)} (joins : Joins fields others results)
      (both : ∀ {name : String} {a b : Shape}, fields.lookup name = some a →
        others.lookup name = some b → ∃ c, results.lookup name = some c)
      (common : ∀ {name : String} {a b c : Shape}, fields.lookup name = some a →
        others.lookup name = some b → results.lookup name = some c → Merged a b c) :
      Merged (object fields) (object others) (object results)

theorem lookup_map_snd {α β : Type} (f : String → α → β) (fields : List (String × α)) :
    (fields.map fun x => (x.1, f x.1 x.2)).lookup name = (fields.lookup name).map (f name) := by
  induction fields with
  | nil => rfl
  | cons x fields ih =>
    rw [List.map_cons, List.lookup_cons, List.lookup_cons]
    cases hname : name == x.1 with
    | true =>
      rw [beq_iff_eq] at hname
      subst hname
      rfl
    | false => exact ih

theorem lookup_filter {α : Type} (p : String → Bool) (fields : List (String × α)) :
    (fields.filter fun x => p x.1).lookup name = if p name then fields.lookup name else none := by
  induction fields with
  | nil => simp
  | cons x fields ih =>
    obtain ⟨other, a⟩ := x
    by_cases hname : name = other
    · subst hname
      by_cases hp : p name = true
      · simp [hp]
      · rw [List.filter_cons_of_neg (p := fun x : String × α => p x.1) (a := (name, a)) hp, ih,
          if_neg hp, if_neg hp]
    · have hbeq := beq_false_of_ne hname
      rw [List.lookup_cons, hbeq, List.filter_cons, ← ih]
      split
      · rw [List.lookup_cons, hbeq]
      · rfl

theorem lookup_append {α : Type} {fields others : List (String × α)} :
    (fields ++ others).lookup name = (fields.lookup name).or (others.lookup name) := by
  induction fields with
  | nil => simp
  | cons x fields ih =>
    rw [List.cons_append, List.lookup_cons, List.lookup_cons]
    split
    · rfl
    · exact ih

theorem lookup_joinFields : (joinFields fields others merged).lookup name =
    match fields.lookup name with
    | some a => some ((merged.lookup name).getD a.orNull)
    | none => (others.lookup name).map orNull := by
  change (fields.map (fun x => (x.1, (merged.lookup x.1).getD x.2.orNull)) ++
    (others.filter fun x => (fields.lookup x.1).isNone).map fun x => (x.1, x.2.orNull)).lookup name = _
  rw [lookup_append, lookup_map_snd fun name (a : Shape) => (merged.lookup name).getD a.orNull,
    lookup_map_snd fun _ (a : Shape) => a.orNull, lookup_filter fun name => (fields.lookup name).isNone]
  cases fields.lookup name <;> rfl

theorem names_joinFields : (joinFields fields others merged).map (·.1) =
    fields.map (·.1) ++ (others.filter fun x => (fields.lookup x.1).isNone).map (·.1) := by
  simp [joinFields, Function.comp_def]

theorem nodup_joinFields (hfields : (fields.map (·.1)).Nodup) (hothers : (others.map (·.1)).Nodup) :
    ((joinFields fields others merged).map (·.1)).Nodup := by
  rw [names_joinFields, List.nodup_append]
  refine ⟨hfields, hothers.sublist (List.filter_sublist.map _), ?_⟩
  rintro name hname _ hother rfl
  obtain ⟨x, hx, rfl⟩ := List.mem_map.1 hname
  obtain ⟨y, hy, heq⟩ := List.mem_map.1 hother
  have hnone := (List.mem_filter.1 hy).2
  rw [heq, lookup_of_mem hfields (show (x.1, x.2) ∈ fields from hx)] at hnone
  cases hnone

/-- Two objects merge to one with the fields of both. -/
theorem names_of_merge {path : String} (h : merge path (object fields) (object others) = .ok c) :
    ∃ results, c = object results ∧
      ∀ name, name ∈ results.map (·.1) ↔ name ∈ fields.map (·.1) ∨ name ∈ others.map (·.1) := by
  rw [merge] at h
  obtain ⟨merged, -, h⟩ := bind_eq_ok.1 h
  cases h
  refine ⟨_, rfl, fun name => ?_⟩
  rw [names_joinFields, List.mem_append]
  refine or_congr_right' fun hname => ⟨fun h => ?_, fun h => ?_⟩
  · exact (List.filter_sublist.map _).subset h
  · obtain ⟨x, hx, rfl⟩ := List.mem_map.1 h
    have hnone : fields.lookup x.1 = none := List.lookup_eq_none_iff.2 fun y hy =>
      bne_iff_ne.2 fun heq => hname (heq ▸ List.mem_map_of_mem hy)
    exact List.mem_map_of_mem (List.mem_filter.2 ⟨hx, by rw [hnone]; rfl⟩)

/-- What common fields merge to is looked up by their names, and other names are not there. -/
def Common (fields others merged : List (String × Shape)) : Prop :=
  ∀ name, (∀ a b, fields.lookup name = some a → others.lookup name = some b →
      ∃ c, merged.lookup name = some c ∧ Merged a b c) ∧
    (others.lookup name = none → merged.lookup name = none)

theorem merged_of_merge {path : String} (h : merge path a b = .ok c) : Merged a b c := by
  refine @merge.induct_unfolding (fun _ a b r => ∀ c, r = .ok c → Merged a b c)
    (fun _ fields others r => ∀ merged, r = .ok merged → Common fields others merged)
    ?_ ?_ ?_ ?_ ?_ ?_ ?_ ?_ ?_ ?_ ?_ ?_ ?_ ?_ ?_ ?_ ?_ ?_ ?_ ?_ ?_ path a b c h
  · rintro _ b _ ⟨⟩
    exact .unknown_left
  · rintro _ a _ _ ⟨⟩
    exact .unknown_right
  · rintro _ b hb _ ⟨⟩
    exact .null_left hb
  · rintro _ a ha _ _ ⟨⟩
    exact .null_right ha
  · intro _ a b _ _ ih c h
    obtain ⟨d, hd, h⟩ := bind_eq_ok.1 h
    cases h
    exact .optional_left (ih d hd)
  · intro _ a b _ _ _ ih c h
    obtain ⟨d, hd, h⟩ := bind_eq_ok.1 h
    cases h
    exact .optional_right (ih d hd)
  · rintro _ _ ⟨⟩
    exact .whole_left
  · rintro _ _ ⟨⟩
    exact .whole_right
  · intro _ a b ih c h
    obtain ⟨d, hd, h⟩ := bind_eq_ok.1 h
    cases h
    exact .list (ih d hd)
  · intro _ fields others ih c h
    obtain ⟨merged, hmerged, h⟩ := bind_eq_ok.1 h
    cases h
    have hcommon := ih merged hmerged
    have hlookup (name : String) := @lookup_joinFields name fields others merged
    refine .object ⟨?_, ?_, ?_, nodup_joinFields⟩ ?_ ?_
    · intro name a ha hb
      rw [hlookup, ha]
      simp only [(hcommon name).2 hb, Option.getD_none]
    · intro name b ha hb
      rw [hlookup, ha]
      simp only [hb, Option.map_some]
    · intro name ha hb
      rw [hlookup, ha]
      simp only [hb, Option.map_none]
    · intro name a b ha hb
      rw [hlookup, ha]
      exact ⟨_, rfl⟩
    · intro name a b c ha hb hc
      obtain ⟨d, hd, hmerge⟩ := (hcommon name).1 a b ha hb
      rw [hlookup, ha] at hc
      simp only [hd, Option.getD_some, Option.some.injEq] at hc
      exact hc ▸ hmerge
  iterate 6
    · rintro _ _ ⟨⟩
      exact .same
  · intro _ a b _ _ _ _ _ _ _ _ _ _ _ _ _ hdateTime hdateTimeOffset hguid htext c h
    cases h
    obtain ⟨ha, hb⟩ := Bool.and_eq_true_iff.1 htext
    by_cases heq : a = b
    · -- other texts than strings have been merged with their like before
      subst heq
      cases a <;> first
        | exact .same
        | exact (hdateTime rfl rfl).elim
        | exact (hdateTimeOffset rfl rfl).elim
        | exact (hguid rfl rfl).elim
        | cases ha
    · exact .texts ha hb heq
  · intro _ a b _ _ _ _ _ _ _ _ _ _ _ _ _ _ _ _ _ c h
    cases h
  · rintro _ fields _ ⟨⟩ name
    exact ⟨fun _ _ _ h => (nomatch h), fun _ => rfl⟩
  · intro _ fields name shape others current hcurrent ihfirst ihrest merged h
    obtain ⟨first, hfirst, h⟩ := bind_eq_ok.1 h
    obtain ⟨rest, hrest, h⟩ := bind_eq_ok.1 h
    cases h
    intro other
    by_cases hname : other = name
    · subst hname
      simp only [List.lookup_cons_self]
      refine ⟨fun a b ha hb => ?_, nofun⟩
      rw [hcurrent] at ha
      cases ha
      cases hb
      exact ⟨first, rfl, ihfirst first hfirst⟩
    · have hbeq := beq_false_of_ne hname
      simp only [List.lookup_cons, hbeq]
      exact ihrest rest hrest other
  · intro _ fields name shape others hnone ih merged h other
    by_cases hname : other = name
    · subst hname
      simp only [hnone, List.lookup_cons_self]
      exact ⟨nofun, nofun⟩
    · have hbeq := beq_false_of_ne hname
      simp only [List.lookup_cons, hbeq]
      exact ih merged h other

/-! ## What a merge shows and covers -/

namespace Merged


theorem ne_unknown (h : Merged a b c) (ha : a.WellFormed) (hb : b.WellFormed)
    (hne : a ≠ unknown ∨ b ≠ unknown) : c ≠ unknown := by
  induction h with
  | unknown_left => exact hne.resolve_left (absurd rfl)
  | unknown_right => exact hne.resolve_right (absurd rfl)
  | null_left h => exact orNull_eq_unknown.not.2 h
  | null_right h => exact orNull_eq_unknown.not.2 h
  | optional_left _ ih => exact orNull_eq_unknown.not.2 (ih ha.2 hb (.inl ha.1))
  | optional_right _ ih => exact orNull_eq_unknown.not.2 (ih hb.2 ha (.inl hb.1))
  | same => exact hne.elim id id
  | _ => simp

theorem wellFormed (h : Merged a b c) (ha : a.WellFormed) (hb : b.WellFormed) : c.WellFormed := by
  induction h with
  | unknown_left => exact hb
  | unknown_right => exact ha
  | null_left => exact hb.orNull
  | null_right => exact ha.orNull
  | optional_left _ ih => exact (ih ha.2 hb).orNull
  | optional_right _ ih => exact (ih hb.2 ha).orNull
  | whole_left => trivial
  | whole_right => trivial
  | same => exact ha
  | texts => trivial
  | list _ ih => exact ih ha hb
  | @object fields others results joins both common ih =>
    have hnodup := joins.nodup ha.1 hb.1
    refine ⟨hnodup, areWellFormed_iff.2 fun f hf => ?_⟩
    obtain ⟨name, s⟩ := f
    have hs := lookup_of_mem hnodup hf
    rcases joins.of_lookup hs with ⟨a, hfield, -, rfl⟩ | ⟨b, -, hother, rfl⟩ | ⟨a, b, hfield, hother⟩
    · obtain ⟨hne, hwf⟩ := ha.field hfield
      exact ⟨orNull_eq_unknown.not.2 hne, hwf.orNull⟩
    · obtain ⟨hne, hwf⟩ := hb.field hother
      exact ⟨orNull_eq_unknown.not.2 hne, hwf.orNull⟩
    · obtain ⟨hne, hwf⟩ := ha.field hfield
      obtain ⟨-, hwf'⟩ := hb.field hother
      exact ⟨(common hfield hother hs).ne_unknown hwf hwf' (.inl hne), ih hfield hother hs hwf hwf'⟩

/-- A merge shows nothing but what is shown by one of the two. -/
theorem shows (h : Merged a b c) (hc : c.Shows path k) : a.Shows path k ∨ b.Shows path k := by
  induction h generalizing path with
  | unknown_left => exact .inr hc
  | unknown_right => exact .inl hc
  | null_left => exact .inr (shows_orNull.1 hc)
  | null_right => exact .inl (shows_orNull.1 hc)
  | optional_left _ ih => exact (ih (shows_orNull.1 hc)).imp .optional id
  | optional_right _ ih => exact ((ih (shows_orNull.1 hc)).imp .optional id).symm
  | whole_left => exact .inr hc
  | whole_right => exact .inl hc
  | same => exact .inl hc
  | texts left =>
    cases hc
    exact .inl (.text left)
  | list _ ih =>
    cases hc with
    | text h => cases h
    | list => exact .inl .list
    | element h => exact (ih h).imp .element .element
  | @object fields others results joins both common ih =>
    cases hc with
    | text h => cases h
    | object => exact .inl .object
    | @field _ name s path k lookup h =>
      rcases joins.of_lookup lookup with ⟨a, hfield, -, rfl⟩ | ⟨b, -, hother, rfl⟩ |
        ⟨a, b, hfield, hother⟩
      · exact .inl (.field hfield (shows_orNull.1 h))
      · exact .inr (.field hother (shows_orNull.1 h))
      · exact (ih hfield hother lookup h).imp (.field hfield) (.field hother)

theorem admitsNull (h : Merged a b c) (ha : a.WellFormed) (hb : b.WellFormed) :
    (a.admitsNull = true → c.admitsNull = true) ∧ (b.admitsNull = true → c.admitsNull = true) := by
  induction h with
  | unknown_left => exact ⟨nofun, id⟩
  | unknown_right => exact ⟨id, nofun⟩
  | null_left h => exact ⟨fun _ => admitsNull_orNull h, fun _ => admitsNull_orNull h⟩
  | null_right h => exact ⟨fun _ => admitsNull_orNull h, fun _ => admitsNull_orNull h⟩
  | optional_left h _ =>
    have hne := h.ne_unknown ha.2 hb (.inl ha.1)
    exact ⟨fun _ => admitsNull_orNull hne, fun _ => admitsNull_orNull hne⟩
  | optional_right h _ =>
    have hne := h.ne_unknown hb.2 ha (.inl hb.1)
    exact ⟨fun _ => admitsNull_orNull hne, fun _ => admitsNull_orNull hne⟩
  | whole_left => exact ⟨nofun, nofun⟩
  | whole_right => exact ⟨nofun, nofun⟩
  | same => exact ⟨id, id⟩
  | texts => exact ⟨fun _ => rfl, fun _ => rfl⟩
  | list => exact ⟨fun _ => rfl, fun _ => rfl⟩
  | object => exact ⟨fun _ => rfl, fun _ => rfl⟩

/-- A text in any form is a string. -/
theorem covers_string (hs : s.isText = true) (h : s.Covers j) : string.Covers j := by
  cases h with
  | null => exact .null rfl
  | string => exact .string
  | dateTime => exact .string
  | dateTimeOffset => exact .string
  | guid => exact .string
  | _ => cases hs

/-- A merge covers what is covered by one of the two. -/
theorem covers (h : Merged a b c) (ha : a.WellFormed) (hb : b.WellFormed) :
    (∀ {j}, a.Covers j → c.Covers j) ∧ (∀ {j}, b.Covers j → c.Covers j) := by
  induction h with
  | unknown_left => exact ⟨fun h => absurd h not_covers_unknown, id⟩
  | unknown_right => exact ⟨id, fun h => absurd h not_covers_unknown⟩
  | null_left h =>
    refine ⟨fun hj => ?_, Covers.orNull⟩
    cases hj
    exact .null (admitsNull_orNull h)
  | null_right h =>
    refine ⟨Covers.orNull, fun hj => ?_⟩
    cases hj
    exact .null (admitsNull_orNull h)
  | optional_left h ih =>
    refine ⟨fun hj => ?_, fun hj => ((ih ha.2 hb).2 hj).orNull⟩
    cases hj with
    | null => exact .null (admitsNull_orNull (h.ne_unknown ha.2 hb (.inl ha.1)))
    | optional hj => exact ((ih ha.2 hb).1 hj).orNull
  | optional_right h ih =>
    refine ⟨fun hj => ((ih hb.2 ha).2 hj).orNull, fun hj => ?_⟩
    cases hj with
    | null => exact .null (admitsNull_orNull (h.ne_unknown hb.2 ha (.inl hb.1)))
    | optional hj => exact ((ih hb.2 ha).1 hj).orNull
  | whole_left =>
    refine ⟨fun hj => ?_, id⟩
    cases hj with
    | null h => cases h
    | integer h => exact .whole h
  | whole_right =>
    refine ⟨id, fun hj => ?_⟩
    cases hj with
    | null h => cases h
    | integer h => exact .whole h
  | same => exact ⟨id, id⟩
  | texts left right => exact ⟨covers_string left, covers_string right⟩
  | list _ ih =>
    constructor <;> intro j hj <;> cases hj
    · exact .null rfl
    · rename_i items h
      exact .list fun item hitem => (ih ha hb).1 (h item hitem)
    · exact .null rfl
    · rename_i items h
      exact .list fun item hitem => (ih ha hb).2 (h item hitem)
  | @object fields others results joins both common ih =>
    constructor <;> intro j hj <;> cases hj
    · exact .null rfl
    · rename_i entries known held absent
      refine .object (fun {name} _ hv => ?_) (fun hv hs => ?_) (fun hv hs => ?_)
      · obtain ⟨a, hfield⟩ := known hv
        cases hother : others.lookup name with
        | none => exact ⟨_, joins.left hfield hother⟩
        | some b => exact both hfield hother
      · rcases joins.of_lookup hs with ⟨a, hfield, -, rfl⟩ | ⟨b, hfield, -, -⟩ | ⟨a, b, hfield, hother⟩
        · exact (held hv hfield).orNull
        · obtain ⟨a, hfield'⟩ := known hv
          rw [hfield] at hfield'
          cases hfield'
        · exact (ih hfield hother hs (ha.field hfield).2 (hb.field hother).2).1 (held hv hfield)
      · rcases joins.of_lookup hs with ⟨a, hfield, -, rfl⟩ | ⟨b, -, hother, rfl⟩ | ⟨a, b, hfield, hother⟩
        · exact admitsNull_orNull (ha.field hfield).1
        · exact admitsNull_orNull (hb.field hother).1
        · exact ((common hfield hother hs).admitsNull (ha.field hfield).2 (hb.field hother).2).1
            (absent hv hfield)
    · exact .null rfl
    · rename_i entries known held absent
      refine .object (fun {name} _ hv => ?_) (fun hv hs => ?_) (fun hv hs => ?_)
      · obtain ⟨b, hother⟩ := known hv
        cases hfield : fields.lookup name with
        | none => exact ⟨_, joins.right hfield hother⟩
        | some a => exact both hfield hother
      · rcases joins.of_lookup hs with ⟨a, -, hother, -⟩ | ⟨b, -, hother, rfl⟩ | ⟨a, b, hfield, hother⟩
        · obtain ⟨b, hother'⟩ := known hv
          rw [hother] at hother'
          cases hother'
        · exact (held hv hother).orNull
        · exact (ih hfield hother hs (ha.field hfield).2 (hb.field hother).2).2 (held hv hother)
      · rcases joins.of_lookup hs with ⟨a, hfield, -, rfl⟩ | ⟨b, -, hother, rfl⟩ | ⟨a, b, hfield, hother⟩
        · exact admitsNull_orNull (ha.field hfield).1
        · exact admitsNull_orNull (hb.field hother).1
        · exact ((common hfield hother hs).admitsNull (ha.field hfield).2 (hb.field hother).2).2
            (absent hv hother)

end Merged

/-! ## When there is a merge -/

/-- The kind of a place that is not always null. -/
def kind? : Shape → Option Kind
  | unknown | null => none
  | bool => some .boolean
  | integer | decimal => some .number
  | string | dateTime | dateTimeOffset | guid => some .string
  | list _ => some .array
  | object _ => some .object
  | optional inner => inner.kind?

theorem shows_kind? (h : s.kind? = some k) : s.Shows [] k := by
  induction s using ind with
  | simple s hs =>
    cases s with
    | optional => cases hs
    | bool => cases h; exact .bool
    | integer => cases h; exact .integer
    | decimal => cases h; exact .decimal
    | unknown => cases h
    | null => cases h
    | list => cases hs
    | object => cases hs
    | _ => cases h; exact .text rfl
  | list => cases h; exact .list
  | object => cases h; exact .object
  | optional inner ih => exact .optional (ih h)

theorem shows_cons (hname : name ∉ fields.map (·.1)) (h : (object fields).Shows path k) :
    (object ((name, s) :: fields)).Shows path k := by
  cases h with
  | text h => cases h
  | object => exact .object
  | @field _ other t path k lookup h =>
    have hne : other ≠ name := by
      rintro rfl
      exact hname (List.mem_map.2 ⟨_, mem_of_lookup lookup, rfl⟩)
    refine .field ?_ h
    rw [List.lookup_cons, beq_false_of_ne hne]
    exact lookup

/-- Two shapes show the same kinds on common paths. -/
def Agree (a b : Shape) : Prop := ∀ path k l, a.Shows path k → b.Shows path l → k = l

theorem exists_merge {path : String} (ha : a.WellFormed) (hb : b.WellFormed) (h : a.Agree b) :
    ∃ c, merge path a b = .ok c := by
  refine @merge.induct_unfolding
    (fun _ a b r => a.WellFormed → b.WellFormed → a.Agree b → ∃ c, r = .ok c)
    (fun _ fields others r => (object fields).WellFormed → (object others).WellFormed →
      (object fields).Agree (object others) → ∃ merged, r = .ok merged)
    ?_ ?_ ?_ ?_ ?_ ?_ ?_ ?_ ?_ ?_ ?_ ?_ ?_ ?_ ?_ ?_ ?_ ?_ ?_ ?_ ?_ path a b ha hb h
  iterate 4
    · intros
      exact ⟨_, rfl⟩
  · intro _ a b _ _ ih ha hb h
    obtain ⟨c, hc⟩ := ih ha.2 hb fun p k l hk => h p k l (.optional hk)
    exact ⟨_, by rw [hc]; rfl⟩
  · intro _ a b _ _ _ ih ha hb h
    obtain ⟨c, hc⟩ := ih hb.2 ha fun p k l hk hl => (h p l k hl (.optional hk)).symm
    exact ⟨_, by rw [hc]; rfl⟩
  iterate 2
    · intros
      exact ⟨_, rfl⟩
  · intro _ a b ih ha hb h
    obtain ⟨c, hc⟩ := ih ha hb fun p k l hk hl => h (.element :: p) k l (.element hk) (.element hl)
    exact ⟨_, by rw [hc]; rfl⟩
  · intro _ fields others ih ha hb h
    obtain ⟨merged, hmerged⟩ := ih ha hb h
    exact ⟨_, by rw [hmerged]; rfl⟩
  iterate 7
    · intros
      exact ⟨_, rfl⟩
  · intro _ a b ha hb ha' hb' ha'' hb'' hn hn' hl ho h₁ h₂ h₃ h₄ h₅ h₆ htext _ _ h
    have hkind (k l : Kind) (hk : a.kind? = some k) (hl : b.kind? = some l) : k = l :=
      h [] k l (shows_kind? hk) (shows_kind? hl)
    cases a <;> cases b <;> first
      | exact (ha rfl).elim | exact (hb rfl).elim | exact (ha' rfl).elim | exact (hb' rfl).elim
      | exact (ha'' _ rfl).elim | exact (hb'' _ rfl).elim | exact (htext rfl).elim
      | exact (hn rfl rfl).elim | exact (hn' rfl rfl).elim | exact (hl _ _ rfl rfl).elim
      | exact (ho _ _ rfl rfl).elim | exact (h₁ rfl rfl).elim | exact (h₂ rfl rfl).elim
      | exact (h₃ rfl rfl).elim
      | exact absurd (hkind _ _ rfl rfl) (by decide)
  · intros
    exact ⟨_, rfl⟩
  · intro _ fields name shape others current hcurrent ihfirst ihrest ha hb h
    have hname := (List.nodup_cons.1 hb.1).1
    obtain ⟨first, hfirst⟩ := ihfirst (ha.field hcurrent).2 (hb.field List.lookup_cons_self).2
      fun p k l hk hl => h (.field name :: p) k l (.field hcurrent hk) (.field List.lookup_cons_self hl)
    obtain ⟨rest, hrest⟩ := ihrest ha ⟨(List.nodup_cons.1 hb.1).2, hb.2.2⟩
      fun p k l hk hl => h p k l hk (shows_cons hname hl)
    exact ⟨_, by rw [hfirst, hrest]; rfl⟩
  · intro _ fields name shape others hnone ih ha hb h
    have hname := (List.nodup_cons.1 hb.1).1
    exact ih ha ⟨(List.nodup_cons.1 hb.1).2, hb.2.2⟩ fun p k l hk hl => h p k l hk (shows_cons hname hl)

end Parlance.Shape
