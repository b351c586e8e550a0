import Parlance.Proofs.Step
import Parlance.Proofs.Typing

/-!
# Coercions of typed expressions

The checked constructors and the implicit conversions make typed expressions of typed ones. What a
coercion leaves behind has the type that it aims at.
-/

namespace Parlance

/-! ## Conversions -/

namespace ValueType

variable {t u : ValueType}

theorem casts_of_underlying_eq (h : t.underlying = u.underlying) : t.casts u = true := by
  unfold casts
  rw [h]
  cases u.underlying <;> simp

theorem converts_of_underlying_eq (h : t.underlying = u.underlying) : t.Converts u :=
  .inr (casts_of_underlying_eq h)

theorem Converts.orNull (h : t.Converts u) : t.Converts u.orNull := by
  rcases h with h | h
  · exact .inl h
  · right
    unfold casts at h ⊢
    rwa [underlying_orNull]

/-- Both types convert to their common type, which is well formed if they are. -/
theorem converts_common? {a b : ValueType} (ha : a.WellFormed) (hb : b.WellFormed)
    (h : a.common? b = some t) : t.WellFormed ∧ a.Converts t ∧ b.Converts t := by
  unfold common? at h
  split at h
  · rename_i hab
    cases h
    exact ⟨ha, converts_of_underlying_eq rfl, converts_of_underlying_eq (by rw [hab])⟩
  split at h
  · rename_i hnull
    cases h
    exact ⟨hb.orNull, .inl hnull, converts_of_underlying_eq (underlying_orNull b).symm⟩
  split at h
  · rename_i hnull
    cases h
    exact ⟨ha.orNull, converts_of_underlying_eq (underlying_orNull a).symm, .inl hnull⟩
  split at h
  · rename_i hsame
    cases h
    refine ⟨ha.underlying.orNull, ?_, ?_⟩ <;> refine converts_of_underlying_eq ?_ <;>
      rw [underlying_orNull, ha.underlying_underlying]
    exact hsame.symm
  obtain ⟨j, hj, rfl⟩ := Option.map_eq_some_iff.1 h
  obtain ⟨hwf, hca, hcb⟩ : j.WellFormed ∧ a.Converts j ∧ b.Converts j := by
    split at hj
    · cases hj
      refine ⟨rfl, .inr ?_, .inr ?_⟩ <;> simp_all [casts, underlying]
    · cases hj
      refine ⟨rfl, .inr ?_, .inr ?_⟩ <;> simp_all [casts, underlying]
    · obtain ⟨k, -, rfl⟩ := Option.map_eq_some_iff.1 hj
      refine ⟨rfl, .inr ?_, .inr ?_⟩ <;> simp_all [casts, underlying]
    · cases hj
  split
  · exact ⟨hwf.orNull, hca.orNull, hcb.orNull⟩
  · exact ⟨hwf, hca, hcb⟩

end ValueType

/-! ## Checked constructors -/

namespace Expr

@[simp] theorem type_converted (e : Expr) (t : ValueType) : (e.converted t).type = t := by
  unfold converted
  split
  · assumption
  · split <;> rfl

theorem null_converted_orNull {t : ValueType} {d : EnumType} (hd : t.underlying = .enum d) :
    null.converted t.orNull = .constant .null t.orNull := by
  have hne : null.type ≠ t.orNull := by
    intro h
    have hu := ValueType.underlying_orNull t
    rw [← h, hd] at hu
    cases hu
  rw [converted, if_neg hne, if_pos (by rw [ValueType.acceptsNull_orNull]; rfl)]

theorem wellFormed_elementType {es : List Expr} (h : ∀ e ∈ es, e.type.WellFormed) :
    (elementType es).WellFormed := by
  induction es with
  | nil => rfl
  | cons e es ih =>
    rw [elementType]
    split
    · exact ih fun e he => h e (List.mem_cons_of_mem _ he)
    · exact h e List.mem_cons_self

theorem binaryType?_eq_some {op : BinaryOp} {t u : ValueType} (h : binaryType? op t = some u) :
    u = t ∨ u = .bool := by
  unfold binaryType? at h
  split at h
  · split at h <;> simp_all
  split at h
  · split at h <;> simp_all
  split at h
  · split at h <;> simp_all
  · split at h <;> simp_all

theorem type_of_equality {op : BinaryOp} {left right x : Expr} (hop : op.isEquality = true)
    (h : binary? op left right = .ok x) : x.type = .bool := by
  unfold binary? at h
  split at h
  · rename_i t ht
    cases h
    rw [Option.ite_none_right_eq_some] at ht
    have harithmetic : op.isArithmetic = false := by cases op <;> first | rfl | cases hop
    have hordering : op.isOrdering = false := by cases op <;> first | rfl | cases hop
    simp only [binaryType?, harithmetic, hordering, hop, Bool.false_eq_true, if_false, if_true,
      Option.ite_none_left_eq_some] at ht
    exact (Option.some.inj ht.2.2).symm
  · cases h

theorem types_of_firstMistyped? {name : String} {index : Nat} {types : List ValueType}
    {args : List Expr} (hlength : types.length = args.length)
    (h : firstMistyped? name index types args = none) : args.map Expr.type = types := by
  induction types generalizing index args with
  | nil =>
    obtain rfl := List.eq_nil_of_length_eq_zero hlength.symm
    rfl
  | cons t types ih =>
    cases args with
    | nil => cases hlength
    | cons e args =>
      rw [firstMistyped?] at h
      split at h
      · rename_i he
        rw [List.map_cons, he, ih (Nat.succ.inj hlength) h]
      · cases h

namespace Typed

variable {wf : Prop} {Γ : List ValueType} {e left right : Expr} {t : ValueType}

theorem wellFormed (hwf : wf) (hΓ : ∀ t ∈ Γ, t.WellFormed) (h : e.Typed wf Γ) : e.type.WellFormed := by
  induction h with
  | constant _ type => exact type hwf
  | parameter slot_eq => exact hΓ _ (List.mem_of_getElem? slot_eq)
  | field _ record field_eq ih => exact (ih hΓ).field record (List.mem_of_getElem? field_eq)
  | convert _ _ type => exact type hwf
  | unary _ _ ih => exact ih hΓ
  | binary _ _ _ type ihl =>
    rcases binaryType?_eq_some type with rfl | rfl
    · exact ihl hΓ
    · rfl
  | call function => exact function.returns
  | list _ _ ih => exact wellFormed_elementType fun e he => ih e he hΓ
  | occupied => rfl
  | quantified => rfl
  | named => rfl

theorem converted (h : e.Typed wf Γ) (hc : wf → e.type.Converts t) (ht : wf → t.WellFormed) :
    (e.converted t).Typed wf Γ := by
  unfold Expr.converted
  split
  · exact h
  split
  · rename_i hnull
    exact .constant (by simpa [Value.Inhabits, Value.inhabits] using (Bool.and_eq_true _ _ ▸ hnull).2) ht
  · exact .convert h hc ht

theorem field? {name : String} (h : e.Typed wf Γ) {x : Expr} (hx : e.field? name = .ok x) :
    x.Typed wf Γ := by
  unfold Expr.field? at hx
  split at hx
  · cases hx
  rename_i r hr
  split at hx
  · cases hx
  rename_i info hinfo
  cases hx
  obtain ⟨index, -, hat⟩ := Option.bind_eq_some_iff.1 hinfo
  obtain ⟨⟨fieldName, type⟩, hget, rfl⟩ := Option.map_eq_some_iff.1 hat
  exact .field h hr hget

theorem unary? {op : UnaryOp} (h : e.Typed wf Γ) {x : Expr} (hx : unary? op e = .ok x) :
    x.Typed wf Γ := by
  unfold Expr.unary? at hx
  split at hx
  · rename_i haccepts
    cases hx
    exact .unary h haccepts
  · cases hx

theorem binary? {op : BinaryOp} (hl : left.Typed wf Γ) (hr : right.Typed wf Γ) {x : Expr}
    (hx : binary? op left right = .ok x) : x.Typed wf Γ := by
  unfold Expr.binary? at hx
  split at hx
  · rename_i type htype
    cases hx
    rw [Option.ite_none_right_eq_some] at htype
    exact .binary hl hr htype.1 htype.2
  · cases hx

theorem call? {f : Function} (hf : f.Sound) {args : List Expr} (h : ∀ e ∈ args, e.Typed wf Γ)
    {x : Expr} (hx : Expr.call? f args = .ok x) : x.Typed wf Γ := by
  unfold Expr.call? at hx
  split at hx
  · cases hx
  rename_i hlength
  split at hx
  · cases hx
  · rename_i hnone
    cases hx
    exact .call hf h (types_of_firstMistyped? (by simpa using hlength) hnone)

/-- A named element is bound behind the parameters in scope. -/
theorem collection? {op : CollectionOp} {slot : Option Nat} {body : Option Expr}
    {element : ValueType} (h : e.Typed wf Γ) (he : e.type.element? = some element)
    (hslot : ∀ s ∈ slot, s = Γ.length)
    (hbody : ∀ b ∈ body, b.Typed wf (if slot.isSome then Γ ++ [element] else Γ))
    {x : Expr} (hx : Expr.collection? op e slot body = .ok x) : x.Typed wf Γ := by
  unfold Expr.collection? at hx
  split at hx
  · cases hx
  split at hx
  · rename_i b
    split at hx
    · rename_i hbool
      cases hx
      have hb := hbody b rfl
      cases slot with
      | none => exact .quantified h he hb hbool
      | some slot =>
        obtain rfl := hslot slot rfl
        exact .named h he hb hbool
    · cases hx
  · split at hx
    · cases hx
    · cases hx
      exact .occupied h he hslot

end Typed

end Expr

/-! ## Pairs -/

namespace Pairing

variable {wf : Prop} {Γ : List ValueType} {left right : Expr}

/-- Both operands make sense where the parameters have these types. -/
def Typed (wf : Prop) (Γ : List ValueType) (p : Pairing) : Prop :=
  p.left.Typed wf Γ ∧ p.right.Typed wf Γ

theorem typed_implicit (hΓ : wf → ∀ t ∈ Γ, t.WellFormed) (hl : left.Typed wf Γ) (hr : right.Typed wf Γ) :
    (implicit left right).Typed wf Γ := by
  unfold implicit
  split
  · exact ⟨hl, hr⟩
  split
  · rename_i t ht
    have hcommon (hwf : wf) := ValueType.converts_common? (hl.wellFormed hwf (hΓ hwf))
      (hr.wellFormed hwf (hΓ hwf)) ht
    exact ⟨hl.converted (fun hwf => (hcommon hwf).2.1) fun hwf => (hcommon hwf).1,
      hr.converted (fun hwf => (hcommon hwf).2.2) fun hwf => (hcommon hwf).1⟩
  · exact ⟨hl, hr⟩

theorem typed_numberAsEnum? {number x : Expr} {t : ValueType} {d : EnumType}
    (h : number.Typed wf Γ) (ht : wf → t.WellFormed) (hd : t.enumType? = some d)
    (hx : numberAsEnum? number t = some x) : x.Typed wf Γ := by
  unfold numberAsEnum? at hx
  split at hx
  · rename_i k hk
    split at hx
    · rename_i hcompatible
      cases hx
      have hc : number.type.Converts t := by
        right
        rw [ValueType.casts, ValueType.numericKind?_eq_some.1 hk, ValueType.enumType?_eq_some.1 hd]
        exact hcompatible
      split
      · exact h.converted (fun _ => hc.orNull) fun hwf => (ht hwf).orNull
      · exact h.converted (fun _ => hc) ht
    · cases hx
  · cases hx

theorem enumSide?_eq_left {d : EnumType} (h : enumSide? left right = some (.left d)) :
    left.type.enumType? = some d := by
  unfold enumSide? at h
  split at h <;> simp_all

theorem enumSide?_eq_right {d : EnumType} (h : enumSide? left right = some (.right d)) :
    right.type.enumType? = some d := by
  unfold enumSide? at h
  split at h <;> simp_all

theorem typed_enumNumber (hΓ : wf → ∀ t ∈ Γ, t.WellFormed) (hl : left.Typed wf Γ) (hr : right.Typed wf Γ) :
    (enumNumber left right).Typed wf Γ := by
  unfold enumNumber
  split
  · exact ⟨hl, hr⟩
  split
  · rename_i d hd
    split
    · rename_i x hx
      exact typed_implicit hΓ hl
        (typed_numberAsEnum? hr (fun hwf => hl.wellFormed hwf (hΓ hwf)) (enumSide?_eq_left hd) hx)
    · exact ⟨hl, hr⟩
  · rename_i d hd
    split
    · rename_i x hx
      exact typed_implicit hΓ
        (typed_numberAsEnum? hl (fun hwf => hr.wellFormed hwf (hΓ hwf)) (enumSide?_eq_right hd) hx) hr
    · exact ⟨hl, hr⟩
  · exact ⟨hl, hr⟩

end Pairing

namespace Expr

variable {wf : Prop} {Γ : List ValueType} {e : Expr} {t : ValueType}

theorem typed_null (ht : wf → t.WellFormed) (hnull : t.acceptsNull = true) :
    Typed wf Γ (.constant .null t) :=
  .constant (by rwa [Value.Inhabits, Value.inhabits]) ht

/-- A constant of an enum, whatever the string was that it stands for. -/
theorem typed_enumConstant {d : EnumType} {ignoreCase : Bool} (ht : wf → t.WellFormed)
    (hd : t.enumType? = some d) {x : Expr} (hx : e.enumConstant d t ignoreCase = .ok x) :
    x.Typed wf Γ := by
  have hu := ValueType.enumType?_eq_some.1 hd
  unfold enumConstant at hx
  split at hx
  · cases hx
  split at hx
  · cases hx
  · split at hx
    · rename_i value _
      cases hx
      have hconstant : Typed wf Γ (.ofValue (.enum d value)) :=
        .constant ((Value.inhabits_iff_of_isScalar rfl).2 rfl) fun _ => rfl
      exact hconstant.converted (fun _ => ValueType.converts_of_underlying_eq hu.symm) ht
    · cases hx
  · cases hx
    exact Typed.converted (typed_null (fun _ => rfl) rfl) (fun _ => .inl rfl) fun hwf => (ht hwf).orNull
  · cases hx

end Expr

theorem Pairing.typed_enumString {wf : Prop} {Γ : List ValueType} {left right : Expr} {ignoreCase : Bool}
    {p : Pairing} (hΓ : wf → ∀ t ∈ Γ, t.WellFormed) (hl : left.Typed wf Γ) (hr : right.Typed wf Γ)
    (hp : enumString ignoreCase left right = .ok p) : p.Typed wf Γ := by
  unfold enumString at hp
  split at hp
  · cases hp
    exact ⟨hl, hr⟩
  split at hp
  · rename_i d hd
    split at hp
    · obtain ⟨x, hx, rfl⟩ := map_eq_ok.1 hp
      exact typed_implicit hΓ hl
        (Expr.typed_enumConstant (fun hwf => hl.wellFormed hwf (hΓ hwf)) (enumSide?_eq_left hd) hx)
    · cases hp
      exact ⟨hl, hr⟩
  · rename_i d hd
    split at hp
    · obtain ⟨x, hx, rfl⟩ := map_eq_ok.1 hp
      exact typed_implicit hΓ
        (Expr.typed_enumConstant (fun hwf => hr.wellFormed hwf (hΓ hwf)) (enumSide?_eq_right hd) hx) hr
    · cases hp
      exact ⟨hl, hr⟩
  · cases hp
    exact ⟨hl, hr⟩

/-! ## Single operands -/

namespace Expr

variable {wf : Prop} {Γ : List ValueType} {e : Expr} {t : ValueType}

/-- An argument that is converted has the declared type. -/
theorem typed_convertTo (h : e.Typed wf Γ) (ht : wf → t.WellFormed) {x : Expr}
    (hx : e.convertTo t = .ok (some x)) : x.Typed wf Γ := by
  unfold convertTo at hx
  split at hx
  · cases hx
    exact h
  rename_i hne
  split at hx
  · rename_i hnull
    split at hx
    · rename_i hacc
      cases hx
      rw [converted, if_neg hne, hnull, hacc]
      exact typed_null ht hacc
    · cases hx
  split at hx
  · rename_i horNull
    cases hx
    exact h.converted (fun _ => ValueType.converts_of_underlying_eq (by rw [← horNull]; simp)) ht
  split at hx
  · rename_i d _ hd
    obtain ⟨y, hy, hxy⟩ := map_eq_ok.1 hx
    cases hxy
    exact typed_enumConstant ht (ValueType.enumType?_eq_some.2 hd) hy
  · split at hx
    · rename_i hcasts
      cases hx
      exact h.converted (fun _ => .inr hcasts) ht
    · cases hx

theorem typed_toBoolean? (hΓ : wf → ∀ t ∈ Γ, t.WellFormed) (h : e.Typed wf Γ) {x : Expr}
    (hx : e.toBoolean? = some x) : x.Typed wf Γ ∧ x.type = .bool := by
  unfold toBoolean? at hx
  split at hx
  · cases hx
    exact ⟨h, by assumption⟩
  · dsimp only at hx
    split at hx
    · have htrue : Typed wf Γ (.ofValue (.bool true)) := .constant rfl fun _ => rfl
      obtain ⟨hl, hr⟩ := Pairing.typed_implicit hΓ h htrue
      have hx := toOption_eq_some.1 hx
      exact ⟨hl.binary? hr hx, type_of_equality rfl hx⟩
    · cases hx

end Expr

end Parlance
