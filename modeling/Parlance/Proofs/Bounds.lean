import Parlance.Proofs.Loading

/-!
# Merged shapes are least upper bounds

One shape is below another if the second tells at least as much of a place as the first
(`Shape.Below`). Two shapes merge exactly if both are below some shape, and what they merge to is the
least such shape (`Shape.Merged.below_iff`). So what the shapes of rows come to does not depend on
their order, up to the order of fields.
-/

namespace Parlance.Shape

open Json (Step Kind)

/-! ## The order of shapes -/

/-- Whether null has been seen in a place. -/
def isOptional (s : Shape) : Bool := s matches null | optional _

/-- What is known of a place apart from null. -/
def core : Shape → Shape
  | null => unknown
  | optional inner => inner.core
  | other => other

/-- Whether the values in a place are known and have no parts. -/
def isScalar (s : Shape) : Bool :=
  s matches bool | integer | decimal | string | dateTime | dateTimeOffset | guid

/-- All that is known by the first shape is also known by the second one, which may be more general: a
place is also null, its numbers are also decimals, its texts are of several kinds, or its objects have
more fields, which are optional. -/
inductive Below : Shape → Shape → Prop
  | unknown {u : Shape} : Below unknown u
  | null {u : Shape} (hu : u.isOptional = true) : Below null u
  | optional {a u : Shape} (hu : u.isOptional = true) (h : Below a u) : Below (optional a) u
  | scalar {s u : Shape} (hs : s.isScalar = true) (hu : u.core = s) : Below s u
  | whole {u : Shape} (hu : u.core = decimal) : Below integer u
  | text {s u : Shape} (hs : s.isText = true) (hu : u.core = string) : Below s u
  | list {a b u : Shape} (hu : u.core = list b) (h : Below a b) : Below (list a) u
  | object {fields others : List (String × Shape)} {u : Shape} (hu : u.core = object others)
      (both : ∀ {name : String} {a : Shape}, fields.lookup name = some a →
        ∃ b, others.lookup name = some b)
      (common : ∀ {name : String} {a b : Shape}, fields.lookup name = some a →
        others.lookup name = some b → Below a b)
      (absent : ∀ {name : String} {b : Shape}, fields.lookup name = none →
        others.lookup name = some b → b.isOptional = true) :
      Below (object fields) u

/-- The order of what is known of a field, which may be absent. -/
def BelowField : Option Shape → Option Shape → Prop
  | some a, some b => Below a b
  | none, some b => b.isOptional = true
  | some _, none => False
  | none, none => True

variable {s t a b c u : Shape} {fields others results : List (String × Shape)} {name : String}
  {path : List Step} {k l : Kind}

theorem core_core (s : Shape) : s.core.core = s.core := by
  induction s using ind with
  | simple s hs => cases s <;> first | rfl | cases hs
  | list => rfl
  | object => rfl
  | optional inner ih => exact ih

theorem core_of_isScalar (hs : s.isScalar = true) : s.core = s := by
  cases s <;> first | rfl | cases hs

theorem isScalar_of_isText (hs : s.isText = true) : s.isScalar = true := by
  cases s <;> first | rfl | cases hs

theorem WellFormed.core (h : s.WellFormed) : s.core.WellFormed := by
  induction s using ind with
  | simple s hs => cases s <;> trivial
  | list => exact h
  | object => exact h
  | optional inner ih => exact ih h.2

/-! ## What is below a shape -/

theorem below_null : null.Below u ↔ u.isOptional = true := by
  refine ⟨fun h => ?_, .null⟩
  cases h with
  | null hu => exact hu
  | scalar hs => cases hs
  | text hs => cases hs

theorem below_optional : (optional a).Below u ↔ a.Below u ∧ u.isOptional = true := by
  refine ⟨fun h => ?_, fun ⟨h, hu⟩ => .optional hu h⟩
  cases h with
  | optional hu h => exact ⟨h, hu⟩
  | scalar hs => cases hs
  | text hs => cases hs

theorem below_orNull (h : s ≠ unknown) : s.orNull.Below u ↔ s.Below u ∧ u.isOptional = true := by
  unfold orNull
  split
  · exact absurd rfl h
  · rw [below_null, and_self]
  · rw [below_optional, and_assoc, and_self]
  · exact below_optional

theorem below_decimal : decimal.Below u ↔ u.core = decimal := by
  refine ⟨fun h => ?_, .scalar rfl⟩
  cases h with
  | scalar _ hu => exact hu
  | text hs => cases hs

theorem below_string : string.Below u ↔ u.core = string := by
  refine ⟨fun h => ?_, .scalar rfl⟩
  cases h with
  | scalar _ hu => exact hu
  | text _ hu => exact hu

theorem below_text (hs : s.isText = true) : s.Below u ↔ u.core = s ∨ u.core = string := by
  constructor
  · intro h
    cases h with
    | scalar _ hu => exact .inl hu
    | text _ hu => exact .inr hu
    | _ => cases hs
  · rintro (hu | hu)
    · exact .scalar (isScalar_of_isText hs) hu
    · exact .text hs hu

theorem below_list : (list a).Below u ↔ ∃ b, u.core = list b ∧ a.Below b := by
  refine ⟨fun h => ?_, fun ⟨b, hu, h⟩ => .list hu h⟩
  cases h with
  | list hu h => exact ⟨_, hu, h⟩
  | scalar hs => cases hs
  | text hs => cases hs

theorem below_object : (object fields).Below u ↔
    ∃ others, u.core = object others ∧ ∀ name, BelowField (fields.lookup name) (others.lookup name) := by
  constructor
  · intro h
    cases h with
    | scalar hs => cases hs
    | text hs => cases hs
    | @object _ others _ hu both common absent =>
      refine ⟨others, hu, fun name => ?_⟩
      cases ha : fields.lookup name with
      | some a =>
        obtain ⟨b, hb⟩ := both ha
        rw [hb]
        exact common ha hb
      | none =>
        cases hb : others.lookup name with
        | some b => exact absent ha hb
        | none => trivial
  · rintro ⟨others, hu, h⟩
    refine .object hu (fun {name _} ha => ?_) (fun {name _ _} ha hb => ?_) (fun {name _} ha hb => ?_)
    · have hname := h name
      cases hb : others.lookup name with
      | some b => exact ⟨b, rfl⟩
      | none =>
        rw [ha, hb] at hname
        exact hname.elim
    all_goals
      have hname := h name
      rw [ha, hb] at hname
      exact hname

theorem Below.isOptional (h : a.Below u) (ha : a.isOptional = true) : u.isOptional = true := by
  cases a with
  | null => exact below_null.1 h
  | optional => exact (below_optional.1 h).2
  | _ => cases ha

/-- Only what is below matters of a shape apart from null. -/
theorem Below.congr (h : a.Below u) (hcore : t.core = u.core)
    (hoptional : u.isOptional = true → t.isOptional = true) : a.Below t := by
  induction h with
  | unknown => exact .unknown
  | null hu => exact .null (hoptional hu)
  | optional hu _ ih => exact .optional (hoptional hu) (ih hcore hoptional)
  | scalar hs hu => exact .scalar hs (hcore.trans hu)
  | whole hu => exact .whole (hcore.trans hu)
  | text hs hu => exact .text hs (hcore.trans hu)
  | list hu h => exact .list (hcore.trans hu) h
  | object hu both common absent => exact .object (hcore.trans hu) both common absent

theorem Below.refl (s : Shape) : s.Below s := by
  induction s using ind with
  | simple s hs =>
    cases s with
    | unknown => exact .unknown
    | null => exact .null rfl
    | list => cases hs
    | object => cases hs
    | optional => cases hs
    | _ => exact .scalar rfl rfl
  | list element ih => exact .list rfl ih
  | object fields ih =>
    refine .object rfl (fun ha => ⟨_, ha⟩) (fun ha hb => ?_) (fun ha hb => ?_)
    · rw [ha] at hb
      cases hb
      exact ih _ (mem_of_lookup ha)
    · rw [ha] at hb
      cases hb
  | optional inner ih => exact .optional rfl (ih.congr rfl fun _ => rfl)

/-- What is below a shape apart from null is below all of it. -/
theorem Below.core (h : a.Below u) : a.core.Below u.core := by
  induction h with
  | unknown => exact .unknown
  | null => exact .unknown
  | optional _ _ ih => exact ih
  | @scalar s u hs hu =>
    rw [core_of_isScalar hs]
    exact .scalar hs ((core_core u).trans hu)
  | @whole u hu => exact .whole ((core_core u).trans hu)
  | @text s u hs hu =>
    rw [core_of_isScalar (isScalar_of_isText hs)]
    exact .text hs ((core_core u).trans hu)
  | @list a b u hu h => exact .list ((core_core u).trans hu) h
  | @object _ _ u hu both common absent => exact .object ((core_core u).trans hu) both common absent

/-! ## Merges -/

theorem shows_core : s.core.Shows path k ↔ s.Shows path k := by
  induction s using ind with
  | simple s hs =>
    cases s with
    | null =>
      constructor <;>
      · rintro (_ | _ | _ | h)
        cases h
    | list => cases hs
    | object => cases hs
    | optional => cases hs
    | _ => rfl
  | list => rfl
  | object => rfl
  | optional inner ih =>
    refine ih.trans ⟨.optional, fun h => ?_⟩
    cases h with
    | text h => cases h
    | optional h => exact h

/-- A shape shows one kind on each path. -/
theorem Shows.unique (h : s.Shows path k) (h' : s.Shows path l) : k = l := by
  induction h with
  | bool => cases h' <;> first | rfl | contradiction
  | integer => cases h' <;> first | rfl | contradiction
  | decimal => cases h' <;> first | rfl | contradiction
  | text hs => exact (shows_text hs h').2.symm
  | list => cases h' <;> first | rfl | contradiction
  | object => cases h' <;> first | rfl | contradiction
  | element _ ih =>
    cases h' with
    | element h' => exact ih h'
  | field lookup _ ih =>
    cases h' with
    | field lookup' h' =>
      rw [lookup] at lookup'
      cases lookup'
      exact ih h'
  | optional _ ih =>
    cases h' with
    | text h' => cases h'
    | optional h' => exact ih h'

theorem Below.shows (h : a.Below u) (ha : a.Shows path k) : u.Shows path k := by
  induction h generalizing path with
  | unknown =>
    cases ha with
    | text hs => cases hs
  | null =>
    cases ha with
    | text hs => cases hs
  | optional _ _ ih =>
    cases ha with
    | text hs => cases hs
    | optional ha => exact ih ha
  | scalar _ hu => exact shows_core.1 (hu ▸ ha)
  | whole hu =>
    refine shows_core.1 (hu ▸ ?_)
    cases ha with
    | text hs => cases hs
    | integer => exact .decimal
  | text hs hu =>
    obtain ⟨rfl, rfl⟩ := shows_text hs ha
    exact shows_core.1 (hu ▸ .text rfl)
  | list hu _ ih =>
    refine shows_core.1 (hu ▸ ?_)
    cases ha with
    | text hs => cases hs
    | list => exact .list
    | element ha => exact .element (ih ha)
  | object hu both _ _ ih =>
    refine shows_core.1 (hu ▸ ?_)
    cases ha with
    | text hs => cases hs
    | object => exact .object
    | field lookup ha =>
      obtain ⟨b, hb⟩ := both lookup
      exact .field hb (ih lookup hb ha)

theorem agree_of_below (ha : a.Below u) (hb : b.Below u) : a.Agree b :=
  fun _ _ _ hk hl => (ha.shows hk).unique (hb.shows hl)

/-- What is above a field of joined objects is above that field of both. -/
theorem Joins.belowField_iff {d : Option Shape} (h : Joins fields others results)
    (hfields : (object fields).WellFormed) (hothers : (object others).WellFormed)
    (both : ∀ {a b : Shape}, fields.lookup name = some a → others.lookup name = some b →
      ∃ c, results.lookup name = some c)
    (common : ∀ {a b c : Shape}, fields.lookup name = some a → others.lookup name = some b →
      results.lookup name = some c → ∀ {d}, c.Below d ↔ a.Below d ∧ b.Below d) :
    BelowField (results.lookup name) d ↔
      BelowField (fields.lookup name) d ∧ BelowField (others.lookup name) d := by
  cases ha : fields.lookup name with
  | none =>
    cases hb : others.lookup name with
    | none => rw [h.neither ha hb, and_self]
    | some b =>
      rw [h.right ha hb]
      cases d with
      | none => exact (and_iff_right trivial).symm
      | some d => exact (below_orNull (hothers.field hb).1).trans and_comm
  | some a =>
    cases hb : others.lookup name with
    | none =>
      rw [h.left ha hb]
      cases d with
      | none => exact (and_iff_left trivial).symm
      | some d => exact below_orNull (hfields.field ha).1
    | some b =>
      obtain ⟨c, hc⟩ := both ha hb
      rw [hc]
      cases d with
      | none => exact (and_self_iff (a := False)).symm
      | some d => exact common ha hb hc

/-- What two shapes merge to is the least shape that both are below. -/
theorem Merged.below_iff (h : Merged a b c) (ha : a.WellFormed) (hb : b.WellFormed) :
    c.Below u ↔ a.Below u ∧ b.Below u := by
  induction h generalizing u with
  | unknown_left => exact (and_iff_right .unknown).symm
  | unknown_right => exact (and_iff_left .unknown).symm
  | null_left h => rw [below_orNull h, below_null, and_comm]
  | null_right h => rw [below_orNull h, below_null]
  | optional_left h ih =>
    rw [below_orNull (h.ne_unknown ha.2 hb (.inl ha.1)), ih ha.2 hb, below_optional, and_right_comm]
  | optional_right h ih =>
    rw [below_orNull (h.ne_unknown hb.2 ha (.inl hb.1)), ih hb.2 ha, below_optional, and_right_comm,
      and_comm]
  | whole_left => exact ⟨fun h => ⟨.whole (below_decimal.1 h), h⟩, And.right⟩
  | whole_right => exact ⟨fun h => ⟨h, .whole (below_decimal.1 h)⟩, And.left⟩
  | same => exact (and_self_iff).symm
  | @texts a b left right ne =>
    rw [below_string, below_text left, below_text right]
    grind
  | list _ ih =>
    simp only [below_list]
    constructor
    · rintro ⟨d, hu, h⟩
      obtain ⟨hleft, hright⟩ := (ih ha hb).1 h
      exact ⟨⟨d, hu, hleft⟩, d, hu, hright⟩
    · rintro ⟨⟨d, hu, hleft⟩, e, hu', hright⟩
      rw [hu] at hu'
      cases hu'
      exact ⟨d, hu, (ih ha hb).2 ⟨hleft, hright⟩⟩
  | @object fields others results joins both common ih =>
    have hname (name : String) (d : Option Shape) : BelowField (results.lookup name) d ↔
        BelowField (fields.lookup name) d ∧ BelowField (others.lookup name) d :=
      joins.belowField_iff ha hb both fun hfield hother hc =>
        ih hfield hother hc (ha.field hfield).2 (hb.field hother).2
    simp only [below_object, hname, forall_and]
    constructor
    · rintro ⟨above, hu, hleft, hright⟩
      exact ⟨⟨above, hu, hleft⟩, above, hu, hright⟩
    · rintro ⟨⟨above, hu, hleft⟩, above', hu', hright⟩
      rw [hu] at hu'
      cases hu'
      exact ⟨above, hu, hleft, hright⟩

theorem exists_merge_of_below (ha : a.WellFormed) (hb : b.WellFormed) (hau : a.Below u)
    (hbu : b.Below u) : ∃ c, merge "" a b = .ok c ∧ c.Below u := by
  obtain ⟨c, hc⟩ : ∃ c, merge "" a b = .ok c := exists_merge ha hb (agree_of_below hau hbu)
  exact ⟨c, hc, ((merged_of_merge hc).below_iff ha hb).2 ⟨hau, hbu⟩⟩

end Parlance.Shape

namespace Parlance.Rows

variable {rows : List Json} {row : Json} {u : Shape} {o o' : Option Shape}

/-! ## What rows show together -/

theorem addShape_eq_ok : addShape o row = .ok o' ↔ isObject row = true ∧
    ∃ c, Shape.merge "" (o.getD .unknown) (Shape.ofJson row) = .ok c ∧ o' = some c := by
  cases o with
  | none => simp [addShape_none, Shape.merge]
  | some s => exact addShape_some

/-- What rows show together is the least shape that all of theirs are below. -/
theorem below_iff_of_foldlM (hrows : ∀ row ∈ rows, row.Distinct) (ho : (o.getD .unknown).WellFormed)
    (h : rows.foldlM addShape o = .ok o') : (o'.getD .unknown).Below u ↔
      (o.getD .unknown).Below u ∧ ∀ row ∈ rows, (Shape.ofJson row).Below u := by
  induction rows generalizing o with
  | nil =>
    cases h
    simp
  | cons row rows ih =>
    obtain ⟨hrow, hrows⟩ := List.forall_mem_cons.1 hrows
    rw [List.foldlM_cons] at h
    obtain ⟨next, hnext, h⟩ := bind_eq_ok.1 h
    obtain ⟨-, c, hc, rfl⟩ := addShape_eq_ok.1 hnext
    have hm := Shape.merged_of_merge hc
    have hwf := Shape.wellFormed_ofJson hrow
    rw [ih (o := some c) hrows (hm.wellFormed ho hwf) h, Option.getD_some, hm.below_iff ho hwf,
      List.forall_mem_cons, and_assoc]

/-- Rows whose shapes are below a common one come together. -/
theorem exists_foldlM_of_below (hrows : ∀ row ∈ rows, isObject row = true ∧ row.Distinct)
    (ho : (o.getD .unknown).WellFormed) (hou : (o.getD .unknown).Below u)
    (h : ∀ row ∈ rows, (Shape.ofJson row).Below u) : ∃ o', rows.foldlM addShape o = .ok o' := by
  induction rows generalizing o with
  | nil => exact ⟨o, rfl⟩
  | cons row rows ih =>
    obtain ⟨⟨hobject, hrow⟩, hrows⟩ := List.forall_mem_cons.1 hrows
    obtain ⟨hbelow, hrest⟩ := List.forall_mem_cons.1 h
    have hwf := Shape.wellFormed_ofJson hrow
    obtain ⟨c, hc, hcu⟩ := Shape.exists_merge_of_below ho hwf hou hbelow
    obtain ⟨o', ho'⟩ := ih (o := some c) hrows ((Shape.merged_of_merge hc).wellFormed ho hwf) hcu hrest
    refine ⟨o', ?_⟩
    rw [List.foldlM_cons]
    exact bind_eq_ok.2 ⟨_, addShape_eq_ok.2 ⟨hobject, c, hc, rfl⟩, ho'⟩

end Parlance.Rows
