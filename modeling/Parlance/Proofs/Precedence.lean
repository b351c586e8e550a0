import Parlance.Proofs.Syntax

/-!
# Who keeps what stands between two operators

Where a piece of text stands between an operator that takes an operand from its right and one that
takes an operand from its left, one of the two has it. `Derivation.Keeps` is the case where the former
has it, and its result is inside the operand of the latter; `Derivation.Takes` is the other case.
`Derivation.Obeys` says that this goes by precedences everywhere in a derivation.
-/

namespace Parlance

/-- Both operators declare a precedence, and the former binds at least as tightly. -/
def Grammar.Binds (g : Grammar) (q o : Token) : Prop :=
  ∃ p r, (g.kind q.rule).precedence? = some p ∧ (g.kind o.rule).precedence? = some r ∧ p ≤ r

namespace Derivation

/-- The operators whose right operands end where the derivation ends, the outermost first. -/
def rightSpine : Derivation → List Token
  | operation op _ [right] => op :: right.rightSpine
  | _ => []

/-- The operators whose left operands start where the derivation starts, the outermost first. -/
def leftSpine : Derivation → List Token
  | operation op [left] _ => op :: left.leftSpine
  | _ => []

/-- A derivation is part of another. -/
inductive Part (d : Derivation) : Derivation → Prop
  | refl : Part d d
  | left {op : Token} {left right : List Derivation} {x : Derivation} (mem : x ∈ left)
      (h : Part d x) : Part d (operation op left right)
  | right {op : Token} {left right : List Derivation} {x : Derivation} (mem : x ∈ right)
      (h : Part d x) : Part d (operation op left right)
  | bracket {opening close : Token} {inner : Derivation} (h : Part d inner) :
      Part d (bracket opening inner close)
  | call {opening close : Token} {args : List Derivation} {delimiters : List Token}
      {x : Derivation} (mem : x ∈ args) (h : Part d x) : Part d (call opening args delimiters close)

/-- The result of `q` is inside the left operand of `o` and ends where `o` begins. -/
def Keeps (d : Derivation) (q o : Token) : Prop :=
  ∃ left right, Part (operation o [left] right) d ∧ q ∈ left.rightSpine

/-- The result of `o` is inside the right operand of `q` and starts right after `q`. -/
def Takes (d : Derivation) (q o : Token) : Prop :=
  ∃ left right, Part (operation q left [right]) d ∧ o ∈ right.leftSpine

/-- A derivation stands in another, in no bracket of it, between the operators that come right before
and right behind it. -/
inductive Stands : Option Token → Derivation → Option Token → Derivation → Prop
  | whole (d : Derivation) : Stands none d none d
  | inLeft {a : Option Token} {y left : Derivation} {o op : Token} {right : List Derivation}
      (h : Stands a y (some o) left) : Stands a y (some o) (operation op [left] right)
  | endsLeft {a : Option Token} {y left : Derivation} {op : Token} {right : List Derivation}
      (h : Stands a y none left) : Stands a y (some op) (operation op [left] right)
  | inRight {b : Option Token} {y right : Derivation} {q op : Token} {left : List Derivation}
      (h : Stands (some q) y b right) : Stands (some q) y b (operation op left [right])
  | startsRight {b : Option Token} {y right : Derivation} {op : Token} {left : List Derivation}
      (h : Stands none y b right) : Stands (some op) y b (operation op left [right])

/-- Precedences decide everywhere who keeps what stands between two operators. -/
structure Obeys (g : Grammar) (d : Derivation) : Prop where
  keeps {q o : Token} : d.Keeps q o → g.Binds q o
  takes {q o : Token} : d.Takes q o → ¬ g.Binds q o

/-! ## What stands between two operators -/

variable {g : Grammar} {d e y : Derivation} {q o : Token}

theorem Part.trans {c : Derivation} (h : Part c d) (h' : Part d e) : Part c e := by
  induction h' with
  | refl => exact h
  | left mem _ ih => exact .left mem ih
  | right mem _ ih => exact .right mem ih
  | bracket _ ih => exact .bracket ih
  | call mem _ ih => exact .call mem ih

/-- The tokens of a part are among those of the whole. -/
theorem Part.mem_tokens {t : Token} (h : Part d e) (ht : t ∈ d.tokens) : t ∈ e.tokens := by
  have hmem {x : Derivation} {xs : List Derivation} (hx : x ∈ xs) (ht : t ∈ x.tokens) :
      t ∈ tokensOf xs := by
    induction xs with
    | nil => cases hx
    | cons y xs ih =>
      rcases List.mem_cons.1 hx with rfl | hx
      · exact List.mem_append_left _ ht
      · exact List.mem_append_right _ (ih hx)
  induction h with
  | refl => exact ht
  | left mem _ ih => simp [tokens, hmem mem ih]
  | right mem _ ih => simp [tokens, hmem mem ih]
  | bracket _ ih => simp [tokens, ih]
  | call mem _ ih => exact mem_tokens_call mem ih

theorem Keeps.of_part (h : d.Keeps q o) (hd : Part d e) : e.Keeps q o :=
  let ⟨left, right, hpart, hmem⟩ := h
  ⟨left, right, hpart.trans hd, hmem⟩

theorem Takes.of_part (h : d.Takes q o) (hd : Part d e) : e.Takes q o :=
  let ⟨left, right, hpart, hmem⟩ := h
  ⟨left, right, hpart.trans hd, hmem⟩

theorem Obeys.of_part (h : e.Obeys g) (hd : Part d e) : d.Obeys g :=
  ⟨fun hk => h.keeps (hk.of_part hd), fun ht => h.takes (ht.of_part hd)⟩

theorem mem_rightSpine_of_stands {b : Option Token} (h : Stands (some q) y b d) (hb : b = none) :
    q ∈ d.rightSpine := by
  generalize ha : some q = a at h
  induction h with
  | whole d => cases ha
  | inLeft _ _ => cases hb
  | endsLeft _ _ => cases hb
  | inRight _ ih =>
    cases ha
    exact List.mem_cons_of_mem _ (ih hb rfl)
  | startsRight _ _ =>
    cases ha
    exact List.mem_cons_self

theorem mem_leftSpine_of_stands {a : Option Token} (h : Stands a y (some o) d) (ha : a = none) :
    o ∈ d.leftSpine := by
  generalize hb : some o = b at h
  induction h with
  | whole d => cases hb
  | inLeft _ ih =>
    cases hb
    exact List.mem_cons_of_mem _ (ih ha rfl)
  | endsLeft _ _ =>
    cases hb
    exact List.mem_cons_self
  | inRight _ _ => cases ha
  | startsRight _ _ => cases ha

/-- One of the two operators has what stands between them. -/
theorem keeps_or_takes (h : Stands (some q) y (some o) d) : d.Keeps q o ∨ d.Takes q o := by
  generalize ha : some q = a at h
  generalize hb : some o = b at h
  induction h with
  | whole d => cases ha
  | @inLeft a y left o op right h ih =>
    have hpart : Part left (operation op [left] right) := .left List.mem_cons_self .refl
    exact (ih ha hb).imp (·.of_part hpart) (·.of_part hpart)
  | @endsLeft a y left op right h ih =>
    cases ha
    cases hb
    exact .inl ⟨left, right, .refl, mem_rightSpine_of_stands h rfl⟩
  | @inRight b y right q op left h ih =>
    have hpart : Part right (operation op left [right]) := .right List.mem_cons_self .refl
    exact (ih ha hb).imp (·.of_part hpart) (·.of_part hpart)
  | @startsRight b y right op left h ih =>
    cases ha
    cases hb
    exact .inr ⟨left, right, .refl, mem_leftSpine_of_stands h rfl⟩

/-- Precedences decide who has what stands between two operators. -/
theorem Obeys.decides (h : d.Obeys g) (hpart : Part e d) (hs : Stands (some q) y (some o) e) :
    (d.Keeps q o ↔ g.Binds q o) ∧ (d.Takes q o ↔ ¬ g.Binds q o) := by
  have hor : d.Keeps q o ∨ d.Takes q o :=
    (keeps_or_takes hs).imp (·.of_part hpart) (·.of_part hpart)
  refine ⟨⟨h.keeps, fun hb => ?_⟩, h.takes, fun hb => ?_⟩
  · exact hor.resolve_right fun ht => h.takes ht hb
  · exact hor.resolve_left fun hk => hb (h.keeps hk)

/-! ## Derivations that go by precedences -/

theorem Obeys.token (t : Token) : (token t).Obeys g := by
  constructor
  · rintro q o ⟨left, right, hpart, -⟩
    cases hpart
  · rintro q o ⟨left, right, hpart, -⟩
    cases hpart

theorem Obeys.bracket {opening close : Token} (h : d.Obeys g) :
    (bracket opening d close).Obeys g := by
  constructor
  · rintro q o ⟨left, right, hpart, hmem⟩
    cases hpart with
    | bracket hpart => exact h.keeps ⟨left, right, hpart, hmem⟩
  · rintro q o ⟨left, right, hpart, hmem⟩
    cases hpart with
    | bracket hpart => exact h.takes ⟨left, right, hpart, hmem⟩

theorem Obeys.call {opening close : Token} {args : List Derivation} {delimiters : List Token}
    (h : ∀ d ∈ args, d.Obeys g) : (call opening args delimiters close).Obeys g := by
  constructor
  · rintro q o ⟨left, right, hpart, hmem⟩
    cases hpart with
    | call harg hpart => exact (h _ harg).keeps ⟨left, right, hpart, hmem⟩
  · rintro q o ⟨left, right, hpart, hmem⟩
    cases hpart with
    | call harg hpart => exact (h _ harg).takes ⟨left, right, hpart, hmem⟩

/-- An operation goes by precedences if its operands do, and if it compares as it should with the
operators at their edges. -/
theorem Obeys.operation {op : Token} {left right : List Derivation}
    (hleft : ∀ x ∈ left, x.Obeys g) (hright : ∀ x ∈ right, x.Obeys g)
    (hkeeps : ∀ x, left = [x] → ∀ q ∈ x.rightSpine, g.Binds q op)
    (htakes : ∀ y, right = [y] → ∀ o ∈ y.leftSpine, ¬ g.Binds op o) :
    (operation op left right).Obeys g := by
  constructor
  · rintro q o ⟨l, r, hpart, hmem⟩
    cases hpart with
    | refl => exact hkeeps l rfl q hmem
    | left hx hpart => exact (hleft _ hx).keeps ⟨l, r, hpart, hmem⟩
    | right hx hpart => exact (hright _ hx).keeps ⟨l, r, hpart, hmem⟩
  · rintro q o ⟨l, r, hpart, hmem⟩
    cases hpart with
    | refl => exact htakes r rfl o hmem
    | left hx hpart => exact (hleft _ hx).takes ⟨l, r, hpart, hmem⟩
    | right hx hpart => exact (hright _ hx).takes ⟨l, r, hpart, hmem⟩

end Derivation

end Parlance
