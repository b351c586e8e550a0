import Parlance.Proofs.Coercion

/-!
# Common types are least upper bounds

One type is below another if bringing both together gives the second one (`ValueType.Below`). Among well
formed types this is a partial order: `Below.refl`, `Below.antisymm` and `Below.trans`. The common type of
two types is the least type that both are below, and types without a common type have no type above both.
So what the types of any number of operands come to depends neither on their order nor on the way in which
they are taken together (`common_types_least`).
-/

namespace Parlance

/-! ## Kinds of numbers -/

namespace NumericKind

variable {k l m : NumericKind}

theorem mem_all (k : NumericKind) : k ∈ all := by
  cases k <;> decide

@[simp] theorem canWidenTo_self (k : NumericKind) : k.canWidenTo k = true := by
  cases k <;> rfl

theorem common?_comm (k l : NumericKind) : k.common? l = l.common? k := by
  have hall : ∀ k ∈ all, ∀ l ∈ all, k.common? l = l.common? k := by decide
  exact hall k (mem_all k) l (mem_all l)

/-- Any two kinds have a first common widening, and all their other common widenings are widenings of
that one. -/
theorem exists_common? (k l : NumericKind) : ∃ m, k.common? l = some m ∧
    ∀ n, m.canWidenTo n = true ↔ k.canWidenTo n = true ∧ l.canWidenTo n = true := by
  have hall : ∀ k ∈ all, ∀ l ∈ all, ∃ m ∈ all, k.common? l = some m ∧
      ∀ n ∈ all, m.canWidenTo n = true ↔ k.canWidenTo n = true ∧ l.canWidenTo n = true := by
    decide +kernel
  obtain ⟨m, -, hm, hn⟩ := hall k (mem_all k) l (mem_all l)
  exact ⟨m, hm, fun n => hn n (mem_all n)⟩

theorem canWidenTo_iff_of_common? (h : k.common? l = some m) (n : NumericKind) :
    m.canWidenTo n = true ↔ k.canWidenTo n = true ∧ l.canWidenTo n = true := by
  obtain ⟨m', hm', hn⟩ := exists_common? k l
  rw [h] at hm'
  cases hm'
  exact hn n

theorem canWidenTo_trans (h : k.canWidenTo l = true) (h' : l.canWidenTo m = true) :
    k.canWidenTo m = true := by
  have hall : ∀ k ∈ all, ∀ l ∈ all, k.canWidenTo l = true → k.common? l = some l := by decide
  exact ((canWidenTo_iff_of_common? (hall k (mem_all k) l (mem_all l) h) m).1 h').1

theorem common?_eq_right_iff : k.common? l = some l ↔ k.canWidenTo l = true := by
  have hall : ∀ k ∈ all, ∀ l ∈ all, k.common? l = some l ↔ k.canWidenTo l = true := by decide
  exact hall k (mem_all k) l (mem_all l)

end NumericKind

namespace ValueType

variable {a b c d u v w x : ValueType}

/-! ## Types without their nullable wrappers -/

/-- A well formed type is told by what is behind its wrapper and by whether it admits null. -/
theorem WellFormed.ext (ha : a.WellFormed) (hb : b.WellFormed) (hu : a.underlying = b.underlying)
    (hnull : a.acceptsNull = b.acceptsNull) : a = b := by
  have hcases {t : ValueType} (ht : t.WellFormed) :
      t = if t.acceptsNull then t.underlying.orNull else t.underlying := by
    cases t with
    | nullable inner =>
      have hinner := (wellFormed_nullable.1 ht).1
      change nullable inner = inner.orNull
      rw [ValueType.orNull, hinner, if_neg Bool.false_ne_true]
    | _ => rfl
  rw [hcases ha, hcases hb, hu, hnull]

theorem acceptsNull_eq_isNullable (h : a.underlying.isReferenceLike = false) :
    a.acceptsNull = a.isNullable := by
  cases a <;> simp_all [acceptsNull, isNullable, underlying]

/-- The first type goes to the second one without a cast, where wrappers are left aside. -/
inductive Widens : ValueType → ValueType → Prop
  | refl (t : ValueType) : Widens t t
  | null (t : ValueType) : Widens .null t
  | moment : Widens .dateTime .dateTimeOffset
  | number {k l : NumericKind} (widens : k.canWidenTo l = true) : Widens (.number k) (.number l)

/-- What two types are brought together to, where wrappers are left aside. -/
inductive Joins : ValueType → ValueType → ValueType → Prop
  | same (t : ValueType) : Joins t t t
  | null_left (t : ValueType) : Joins .null t t
  | null_right (t : ValueType) : Joins t .null t
  | moment_left : Joins .dateTimeOffset .dateTime .dateTimeOffset
  | moment_right : Joins .dateTime .dateTimeOffset .dateTimeOffset
  | number {k l m : NumericKind} (common : k.common? l = some m) :
      Joins (.number k) (.number l) (.number m)

theorem Joins.unique (h : Joins u v w) (h' : Joins u v x) : w = x := by
  cases h <;> cases h' <;> simp_all [NumericKind.common?]

theorem joins_right_iff : Joins u v v ↔ Widens u v := by
  constructor
  · intro h
    cases h with
    | same => exact .refl u
    | null_left => exact .null v
    | null_right => exact .refl .null
    | moment_right => exact .moment
    | number common => exact .number (NumericKind.common?_eq_right_iff.1 common)
  · intro h
    cases h with
    | refl => exact .same u
    | null => exact .null_left v
    | moment => exact .moment_right
    | number widens => exact .number (NumericKind.common?_eq_right_iff.2 widens)

theorem Widens.trans (h : Widens u v) (h' : Widens v w) : Widens u w := by
  cases h with
  | refl => exact h'
  | null => exact .null w
  | moment =>
    cases h'
    exact .moment
  | number widens =>
    cases h' with
    | refl => exact .number widens
    | number widens' => exact .number (NumericKind.canWidenTo_trans widens widens')

/-- What is brought together goes to exactly the types that both parts go to. -/
theorem Joins.widens_iff (h : Joins u v w) : Widens w x ↔ Widens u x ∧ Widens v x := by
  cases h with
  | same => exact (and_self_iff).symm
  | null_left => exact (and_iff_right (.null x)).symm
  | null_right => exact (and_iff_left (.null x)).symm
  | moment_left => exact (and_iff_left_of_imp Widens.moment.trans).symm
  | moment_right => exact (and_iff_right_of_imp Widens.moment.trans).symm
  | @number k l m common =>
    have hleft : Widens (.number k) (.number m) :=
      .number ((NumericKind.canWidenTo_iff_of_common? common m).1 m.canWidenTo_self).1
    have hright : Widens (.number l) (.number m) :=
      .number ((NumericKind.canWidenTo_iff_of_common? common m).1 m.canWidenTo_self).2
    refine ⟨fun h => ⟨hleft.trans h, hright.trans h⟩, fun ⟨hkx, hlx⟩ => ?_⟩
    have hnumber {k : NumericKind} (h : Widens (.number k) x) :
        ∃ n, x = .number n ∧ k.canWidenTo n = true := by
      cases h with
      | refl => exact ⟨k, rfl, k.canWidenTo_self⟩
      | number widens => exact ⟨_, rfl, widens⟩
    obtain ⟨n, rfl, hk⟩ := hnumber hkx
    obtain ⟨n', hn', hl⟩ := hnumber hlx
    cases hn'
    exact .number ((NumericKind.canWidenTo_iff_of_common? common n).2 ⟨hk, hl⟩)

theorem exists_joins (hu : Widens u x) (hv : Widens v x) : ∃ w, Joins u v w := by
  cases hu with
  | refl =>
    cases hv with
    | refl => exact ⟨_, .same _⟩
    | null => exact ⟨_, .null_right _⟩
    | moment => exact ⟨_, .moment_left⟩
    | @number k l =>
      obtain ⟨m, hm, -⟩ := NumericKind.exists_common? l k
      exact ⟨_, .number hm⟩
  | null => exact ⟨_, .null_left _⟩
  | moment =>
    cases hv with
    | refl => exact ⟨_, .moment_right⟩
    | null => exact ⟨_, .null_right _⟩
    | moment => exact ⟨_, .same _⟩
  | @number k l =>
    cases hv with
    | refl =>
      obtain ⟨m, hm, -⟩ := NumericKind.exists_common? k l
      exact ⟨_, .number hm⟩
    | null => exact ⟨_, .null_right _⟩
    | @number k' =>
      obtain ⟨m, hm, -⟩ := NumericKind.exists_common? k k'
      exact ⟨_, .number hm⟩

/-! ## Common types -/

theorem common?_comm (a b : ValueType) : a.common? b = b.common? a := by
  unfold common?
  by_cases hab : a = b
  · rw [if_pos hab, if_pos hab.symm, hab]
  rw [if_neg hab, if_neg (Ne.symm hab)]
  by_cases ha : a = .null
  · have hb : b ≠ .null := fun hb => hab (ha.trans hb.symm)
    rw [if_pos ha, if_neg hb, if_pos ha]
  rw [if_neg ha]
  by_cases hb : b = .null
  · rw [if_pos hb, if_pos hb]
  rw [if_neg hb, if_neg hb, if_neg ha]
  by_cases hu : a.underlying = b.underlying
  · rw [if_pos hu, if_pos hu.symm, hu]
  rw [if_neg hu, if_neg (Ne.symm hu), Bool.or_comm]
  dsimp only
  congr 1
  split
  · rename_i hu hv
    rw [hu, hv]
  · rename_i hu hv
    rw [hu, hv]
  · rename_i k l hu hv
    rw [hu, hv, NumericKind.common?_comm]
  · split <;> first | rfl | simp_all

/-- The common type, told by what is behind its wrapper and by whether it admits null. -/
theorem joins_of_common? (ha : a.WellFormed) (hb : b.WellFormed) (h : a.common? b = some c) :
    Joins a.underlying b.underlying c.underlying ∧ c.acceptsNull = (a.acceptsNull || b.acceptsNull) := by
  unfold common? at h
  split at h
  · rename_i hab
    cases h
    rw [← hab, Bool.or_self]
    exact ⟨.same _, rfl⟩
  rename_i hne
  split at h
  · rename_i hnull
    cases h
    rw [hnull, underlying_orNull, acceptsNull_orNull]
    exact ⟨.null_left _, rfl⟩
  split at h
  · rename_i hnull
    cases h
    rw [hnull, underlying_orNull, acceptsNull_orNull]
    exact ⟨.null_right _, (Bool.or_true _).symm⟩
  split at h
  · rename_i hu
    cases h
    rw [← hu, underlying_orNull, acceptsNull_orNull, ha.underlying_underlying]
    -- Two types that both refuse null and have the same behind their wrappers would be equal.
    refine ⟨.same _, Eq.symm ?_⟩
    by_contra hor
    obtain ⟨hanull, hbnull⟩ := Bool.or_eq_false_iff.1 (Bool.eq_false_iff.2 hor)
    exact hne (ha.ext hb hu (hanull.trans hbnull.symm))
  obtain ⟨j, hj, rfl⟩ := Option.map_eq_some_iff.1 h
  obtain ⟨hjoins, hplain, haref, hbref⟩ : Joins a.underlying b.underlying j ∧
      (j.underlying = j ∧ j.acceptsNull = false) ∧ a.underlying.isReferenceLike = false ∧
      b.underlying.isReferenceLike = false := by
    split at hj
    · rename_i hu hv
      cases hj
      rw [hu, hv]
      exact ⟨.moment_right, ⟨rfl, rfl⟩, rfl, rfl⟩
    · rename_i hu hv
      cases hj
      rw [hu, hv]
      exact ⟨.moment_left, ⟨rfl, rfl⟩, rfl, rfl⟩
    · rename_i k l hu hv
      obtain ⟨m, hm, rfl⟩ := Option.map_eq_some_iff.1 hj
      rw [hu, hv]
      exact ⟨.number hm, ⟨rfl, rfl⟩, rfl, rfl⟩
    · cases hj
  rw [acceptsNull_eq_isNullable haref, acceptsNull_eq_isNullable hbref]
  split
  · rename_i hnullable
    rw [underlying_orNull, acceptsNull_orNull, hplain.1, hnullable]
    exact ⟨hjoins, rfl⟩
  · rename_i hnullable
    rw [hplain.1, hplain.2, Bool.eq_false_iff.2 hnullable]
    exact ⟨hjoins, rfl⟩

theorem exists_common?_of_joins (ha : a.WellFormed) (hb : b.WellFormed)
    (h : Joins a.underlying b.underlying w) : ∃ c, a.common? b = some c := by
  have hnull {t : ValueType} (ht : t.WellFormed) (hu : t.underlying = .null) : t = .null :=
    ht.ext rfl hu (by cases t <;> simp_all [underlying, acceptsNull, isNullable, isReferenceLike])
  unfold common?
  split
  · exact ⟨_, rfl⟩
  split
  · exact ⟨_, rfl⟩
  split
  · exact ⟨_, rfl⟩
  split
  · exact ⟨_, rfl⟩
  rename_i hane hbne hune
  generalize hu : a.underlying = u at h hune
  generalize hv : b.underlying = v at h hune
  cases h with
  | same => exact absurd rfl hune
  | null_left => exact absurd (hnull ha hu) hane
  | null_right => exact absurd (hnull hb hv) hbne
  | moment_left => exact ⟨_, rfl⟩
  | moment_right => exact ⟨_, rfl⟩
  | number common =>
    dsimp only
    rw [common]
    exact ⟨_, rfl⟩

/-! ## The order of types -/

/-- Bringing both types together gives the second one. -/
def Below (a b : ValueType) : Prop := a.common? b = some b

/-- A type is below another one if it widens to that and null is kept. -/
theorem below_iff (ha : a.WellFormed) (hb : b.WellFormed) :
    a.Below b ↔ Widens a.underlying b.underlying ∧ (a.acceptsNull = true → b.acceptsNull = true) := by
  constructor
  · intro h
    obtain ⟨hjoins, hnull⟩ := joins_of_common? ha hb h
    exact ⟨joins_right_iff.1 hjoins, fun ha => by rw [hnull, ha, Bool.true_or]⟩
  · rintro ⟨hwidens, hnull⟩
    have hjoins := joins_right_iff.2 hwidens
    obtain ⟨c, hc⟩ := exists_common?_of_joins ha hb hjoins
    obtain ⟨hjoins', hnull'⟩ := joins_of_common? ha hb hc
    have hcb : c = b := by
      refine (converts_common? ha hb hc).1.ext hb (hjoins'.unique hjoins) ?_
      rw [hnull', Bool.or_eq_right_iff_imp]
      exact hnull
    rw [Below, hc, hcb]

theorem Below.refl (a : ValueType) : a.Below a := by
  rw [Below, common?, if_pos rfl]

theorem Below.antisymm (h : a.Below b) (h' : b.Below a) : a = b := by
  rw [Below, common?_comm] at h'
  exact Option.some.inj (h'.symm.trans h)

theorem Below.trans (ha : a.WellFormed) (hb : b.WellFormed) (hc : c.WellFormed) (h : a.Below b)
    (h' : b.Below c) : a.Below c := by
  obtain ⟨hwidens, hnull⟩ := (below_iff ha hb).1 h
  obtain ⟨hwidens', hnull'⟩ := (below_iff hb hc).1 h'
  exact (below_iff ha hc).2 ⟨hwidens.trans hwidens', hnull' ∘ hnull⟩

/-- The common type is below exactly the types that both types are below. -/
theorem below_of_common? (ha : a.WellFormed) (hb : b.WellFormed) (hd : d.WellFormed)
    (h : a.common? b = some c) : c.Below d ↔ a.Below d ∧ b.Below d := by
  obtain ⟨hjoins, hnull⟩ := joins_of_common? ha hb h
  have hc := (converts_common? ha hb h).1
  rw [below_iff hc hd, below_iff ha hd, below_iff hb hd, hjoins.widens_iff, hnull, Bool.or_eq_true,
    or_imp]
  exact and_and_and_comm

theorem exists_common?_of_below (ha : a.WellFormed) (hb : b.WellFormed) (hd : d.WellFormed)
    (had : a.Below d) (hbd : b.Below d) : ∃ c, a.common? b = some c := by
  obtain ⟨w, hw⟩ := exists_joins ((below_iff ha hd).1 had).1 ((below_iff hb hd).1 hbd).1
  exact exists_common?_of_joins ha hb hw

end ValueType

/-! ## Any number of types -/

/-- Some types, and how they are brought together two at a time. -/
inductive Grouping where
  | single (type : ValueType)
  | pair (left right : Grouping)

namespace Grouping

/-- What all types are brought together to. -/
def common? : Grouping → Option ValueType
  | single type => some type
  | pair left right => left.common?.bind fun a => right.common?.bind a.common?

/-- The types, in their order. -/
def types : Grouping → List ValueType
  | single type => [type]
  | pair left right => left.types ++ right.types

variable {g h left right : Grouping} {c d : ValueType}

theorem common?_pair : (pair left right).common? = some c ↔
    ∃ a b, left.common? = some a ∧ right.common? = some b ∧ a.common? b = some c := by
  simp only [common?, Option.bind_eq_some_iff]
  constructor
  · rintro ⟨a, ha, b, hb, hc⟩
    exact ⟨a, b, ha, hb, hc⟩
  · rintro ⟨a, b, ha, hb, hc⟩
    exact ⟨a, ha, b, hb, hc⟩

theorem forall_types_pair {p : ValueType → Prop} :
    (∀ t ∈ (pair left right).types, p t) ↔ (∀ t ∈ left.types, p t) ∧ ∀ t ∈ right.types, p t :=
  List.forall_mem_append

theorem wellFormed_common? (hg : ∀ t ∈ g.types, t.WellFormed) (hc : g.common? = some c) :
    c.WellFormed := by
  induction g generalizing c with
  | single type =>
    cases hc
    exact hg _ List.mem_cons_self
  | pair left right ihl ihr =>
    obtain ⟨hleft, hright⟩ := forall_types_pair.1 hg
    obtain ⟨a, b, ha, hb, hc⟩ := common?_pair.1 hc
    exact (ValueType.converts_common? (ihl hleft ha) (ihr hright hb) hc).1

/-- What all types are brought together to is below exactly the types that all of them are below. -/
theorem below_of_common? (hg : ∀ t ∈ g.types, t.WellFormed) (hd : d.WellFormed)
    (hc : g.common? = some c) : c.Below d ↔ ∀ t ∈ g.types, t.Below d := by
  induction g generalizing c with
  | single type =>
    cases hc
    exact (List.forall_mem_singleton (p := (ValueType.Below · d))).symm
  | pair left right ihl ihr =>
    obtain ⟨hleft, hright⟩ := forall_types_pair.1 hg
    obtain ⟨a, b, ha, hb, hc⟩ := common?_pair.1 hc
    rw [ValueType.below_of_common? (wellFormed_common? hleft ha) (wellFormed_common? hright hb) hd hc,
      ihl hleft ha, ihr hright hb, forall_types_pair]

/-- Types that are all below some type are brought together to one. -/
theorem exists_common?_of_below (hg : ∀ t ∈ g.types, t.WellFormed) (hd : d.WellFormed)
    (h : ∀ t ∈ g.types, t.Below d) : ∃ c, g.common? = some c := by
  induction g with
  | single type => exact ⟨type, rfl⟩
  | pair left right ihl ihr =>
    obtain ⟨hleft, hright⟩ := forall_types_pair.1 hg
    obtain ⟨hl, hr⟩ := forall_types_pair.1 h
    obtain ⟨a, ha⟩ := ihl hleft hl
    obtain ⟨b, hb⟩ := ihr hright hr
    obtain ⟨c, hc⟩ := ValueType.exists_common?_of_below (wellFormed_common? hleft ha)
      (wellFormed_common? hright hb) hd ((below_of_common? hleft hd ha).2 hl)
      ((below_of_common? hright hd hb).2 hr)
    exact ⟨c, common?_pair.2 ⟨a, b, ha, hb, hc⟩⟩

/-- Two ways to bring the same types together come to the same type, if the first comes to any. -/
theorem common?_eq_some_of_types (hg : ∀ t ∈ g.types, t.WellFormed)
    (htypes : ∀ t, t ∈ g.types ↔ t ∈ h.types) (hc : g.common? = some c) : h.common? = some c := by
  have hh : ∀ t ∈ h.types, t.WellFormed := fun t ht => hg t ((htypes t).2 ht)
  have hwf := wellFormed_common? hg hc
  have hbelow : ∀ t ∈ h.types, t.Below c := fun t ht =>
    (below_of_common? hg hwf hc).1 (.refl c) t ((htypes t).2 ht)
  obtain ⟨c', hc'⟩ := exists_common?_of_below hh hwf hbelow
  have hwf' := wellFormed_common? hh hc'
  have hle : c'.Below c := (below_of_common? hh hwf hc').2 hbelow
  have hge : c.Below c' := (below_of_common? hg hwf' hc).2 fun t ht =>
    (below_of_common? hh hwf' hc').1 (.refl c') t ((htypes t).1 ht)
  rw [hc', hle.antisymm hge]

end Grouping

/-- Well formed types are partially ordered by what they are brought together to, which does not depend
on the side. The common type of two types is the least type that both are below; where there is none, no
type has both below it. What any number of types come to depends on which types they are, and not on
their order or on how they are taken together. -/
theorem common_types_least {a b c : ValueType} {g h : Grouping} (ha : a.WellFormed) (hb : b.WellFormed)
    (hc : c.WellFormed) (hg : ∀ t ∈ g.types, t.WellFormed) (hgh : ∀ t, t ∈ g.types ↔ t ∈ h.types) :
    a.Below a ∧ (a.Below b → b.Below a → a = b) ∧ (a.Below b → b.Below c → a.Below c) ∧
    a.common? b = b.common? a ∧
    (∀ j, a.common? b = some j → j.WellFormed ∧ a.Below j ∧ b.Below j ∧
      ∀ d : ValueType, d.WellFormed → a.Below d → b.Below d → j.Below d) ∧
    (a.common? b = none → ∀ d : ValueType, d.WellFormed → ¬ (a.Below d ∧ b.Below d)) ∧
    g.common? = h.common? := by
  refine ⟨.refl a, ValueType.Below.antisymm, ValueType.Below.trans ha hb hc,
    ValueType.common?_comm a b, fun j hj => ?_, fun hnone d hd ⟨had, hbd⟩ => ?_, ?_⟩
  · have hwf := (ValueType.converts_common? ha hb hj).1
    obtain ⟨haj, hbj⟩ := (ValueType.below_of_common? ha hb hwf hj).1 (.refl j)
    exact ⟨hwf, haj, hbj, fun d hd had hbd => (ValueType.below_of_common? ha hb hd hj).2 ⟨had, hbd⟩⟩
  · obtain ⟨j, hj⟩ := ValueType.exists_common?_of_below ha hb hd had hbd
    rw [hj] at hnone
    cases hnone
  · have hh : ∀ t ∈ h.types, t.WellFormed := fun t ht => hg t ((hgh t).2 ht)
    ext j
    exact ⟨Grouping.common?_eq_some_of_types hg hgh,
      Grouping.common?_eq_some_of_types hh fun t => (hgh t).symm⟩

/-- A byte that may be null is brought together with a character, and what they come to with a null. -/
def byteFirst : Grouping :=
  .pair (.pair (.single (.nullable (.number .byte))) (.single (.number .char))) (.single .null)

/-- The same types from the last to the first. -/
def nullFirst : Grouping :=
  .pair (.single .null) (.pair (.single (.number .char)) (.single (.nullable (.number .byte))))

/-- In whatever order, they come to the numbers of 16 bits that may be null. -/
theorem common_types_least_char :
    (∀ t ∈ byteFirst.types, t.WellFormed) ∧ (∀ t, t ∈ byteFirst.types ↔ t ∈ nullFirst.types) ∧
      byteFirst.common? = some (.nullable (.number .ushort)) ∧
      byteFirst.common? = nullFirst.common? := by
  have hwf : ∀ t ∈ byteFirst.types, t.WellFormed := by decide
  have htypes : ∀ t, t ∈ byteFirst.types ↔ t ∈ nullFirst.types := by
    intro t
    simp only [byteFirst, nullFirst, Grouping.types, List.cons_append, List.nil_append, List.mem_cons,
      List.not_mem_nil, or_false]
    tauto
  have hnull : ValueType.null.WellFormed := rfl
  exact ⟨hwf, htypes, by decide, (common_types_least hnull hnull hnull hwf htypes).2.2.2.2.2.2⟩

end Parlance
