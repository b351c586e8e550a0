import Mathlib.Data.List.Forall2
import Mathlib.Data.List.Pairwise
import Parlance.Proofs.Syntax

/-!
# Texts whose tokens are alike

What a parse makes of its tokens depends on their rules, their texts and their order, but not on where
they stand: two runs over tokens that are alike go on alike (`Follows`), with operands of equal
expressions in places that correspond (`Alignment`). Positions are only compared, a stop with a start, and
a comparison has the same answer wherever the tokens keep their order.
-/

namespace Parlance

/-! ## Corresponding places -/

/-- Starts and stops in one text against those in another, in the same order. -/
structure Alignment where
  starts : Nat → Nat → Prop
  stops : Nat → Nat → Prop
  starts_le {a a' b b' : Nat} : starts a a' → starts b b' → (a ≤ b ↔ a' ≤ b')
  stops_le {a a' b b' : Nat} : stops a a' → stops b b' → (a ≤ b ↔ a' ≤ b')
  stop_le_start {a a' b b' : Nat} : stops a a' → starts b b' → (a ≤ b ↔ a' ≤ b')

namespace Alignment

/-- Extents of corresponding places. -/
structure Extents (m : Alignment) (e e' : Extent) : Prop where
  start : m.starts e.start e'.start
  stop : m.stops e.stop e'.stop
  width : e.start ≤ e.stop
  width' : e'.start ≤ e'.stop

/-- Tokens of one rule and one text, in corresponding places. -/
structure Tokens (m : Alignment) (t t' : Token) : Prop where
  rule : t.rule = t'.rule
  text : t.text = t'.text
  extent : m.Extents t.extent t'.extent

/-- Operands of one expression, in corresponding places. -/
structure Operands (m : Alignment) (x x' : Operand) : Prop where
  expr : x.expr = x'.expr
  extent : m.Extents x.extent x'.extent

/-- Activations of corresponding tokens. -/
structure Activations (m : Alignment) (a a' : Activation) : Prop where
  token : m.Tokens a.token a'.token
  slot : a.slot = a'.slot

/-- Parse states with corresponding stacks. -/
structure States (m : Alignment) (s s' : ParseState) : Prop where
  parameters : s.parameters = s'.parameters
  operands : List.Forall₂ m.Operands s.operands s'.operands
  operators : List.Forall₂ m.Activations s.operators s'.operators

variable {m : Alignment} {a a' b b' e e' : Extent}

namespace Extents

theorem rightOf_eq (ha : m.Extents a a') (hb : m.Extents b b') : a.rightOf b = a'.rightOf b' :=
  decide_eq_decide.2 (m.stop_le_start hb.stop ha.start)

theorem leftOf_eq (ha : m.Extents a a') (hb : m.Extents b b') : a.leftOf b = a'.leftOf b' :=
  decide_eq_decide.2 (m.stop_le_start ha.stop hb.start)

theorem isBetween_eq (he : m.Extents e e') (ha : m.Extents a a') (hb : m.Extents b b') :
    e.isBetween a b = e'.isBetween a' b' :=
  congrArg₂ (· && ·) (he.rightOf_eq ha) (he.leftOf_eq hb)

theorem cover (ha : m.Extents a a') (hb : m.Extents b b') : m.Extents (a.cover b) (a'.cover b') where
  start := by
    have hle := m.starts_le ha.start hb.start
    rcases Nat.le_total a.start b.start with h | h
    · simpa [Extent.cover, h, hle.1 h] using ha.start
    · have h' := (m.starts_le hb.start ha.start).1 h
      simpa [Extent.cover, h, h'] using hb.start
  stop := by
    have hle := m.stops_le ha.stop hb.stop
    rcases Nat.le_total a.stop b.stop with h | h
    · simpa [Extent.cover, h, hle.1 h] using hb.stop
    · have h' := (m.stops_le hb.stop ha.stop).1 h
      simpa [Extent.cover, h, h'] using ha.stop
  width := (min_le_left _ _).trans (ha.width.trans (le_max_left _ _))
  width' := (min_le_left _ _).trans (ha.width'.trans (le_max_left _ _))

theorem coverAll {es es' : List Extent} (ha : m.Extents a a') (hes : List.Forall₂ m.Extents es es') :
    m.Extents (a.coverAll es) (a'.coverAll es') := by
  induction hes generalizing a a' with
  | nil => exact ha
  | cons he _ ih => exact ih (ha.cover he)

end Extents

variable {xs xs' : List Operand}

theorem extents_of_operands (h : List.Forall₂ m.Operands xs xs') :
    List.Forall₂ m.Extents (xs.map Operand.extent) (xs'.map Operand.extent) := by
  induction h with
  | nil => exact .nil
  | cons hx _ ih => exact .cons hx.extent ih

theorem exprs_of_operands (h : List.Forall₂ m.Operands xs xs') :
    xs.map Operand.expr = xs'.map Operand.expr := by
  induction h with
  | nil => rfl
  | cons hx _ ih => rw [List.map_cons, List.map_cons, hx.expr, ih]

theorem coverAll_operands (h : List.Forall₂ m.Operands xs xs') (hne : xs ≠ []) :
    m.Extents (Operand.coverAll xs) (Operand.coverAll xs') := by
  cases h with
  | nil => exact absurd rfl hne
  | cons hx hxs => exact hx.extent.coverAll (extents_of_operands hxs)

/-! ## Tokens in order -/

/-- Of two pairs the former stands before the latter. -/
def Before (p q : Token × Token) : Prop :=
  p.1.extent.stop ≤ q.1.extent.start ∧ p.2.extent.stop ≤ q.2.extent.start

theorem pairwise_before {start stop start' stop' : Nat} {ts ts' : List Token}
    (ordered : Ordered start ts stop) (ordered' : Ordered start' ts' stop') :
    (ts.zip ts').Pairwise Before := by
  induction ts generalizing start start' ts' with
  | nil => exact .nil
  | cons t ts ih =>
    cases ts' with
    | nil => exact .nil
    | cons t' ts' =>
      refine .cons (fun q hq => ?_) (ih ordered.2.2 ordered'.2.2)
      obtain ⟨h, h'⟩ := List.of_mem_zip hq
      exact ⟨(ordered.2.2.mem h).1, (ordered'.2.2.mem h').1⟩

/-- Of two pairs one stands before the other in both texts, unless they are the same, and no token is
empty. -/
theorem before_or {start stop start' stop' : Nat} {ts ts' : List Token} {p q : Token × Token}
    (ordered : Ordered start ts stop) (ordered' : Ordered start' ts' stop') (hp : p ∈ ts.zip ts')
    (hq : q ∈ ts.zip ts') : (p = q ∨ Before p q ∨ Before q p) ∧
      p.1.extent.start < p.1.extent.stop ∧ p.2.extent.start < p.2.extent.stop ∧
      q.1.extent.start < q.1.extent.stop ∧ q.2.extent.start < q.2.extent.stop := by
  have hmem := List.of_mem_zip hp
  have hmem' := List.of_mem_zip hq
  refine ⟨?_, (ordered.mem hmem.1).2.1, (ordered'.mem hmem.2).2.1, (ordered.mem hmem'.1).2.1,
    (ordered'.mem hmem'.2).2.1⟩
  have hsymm : Std.Symm fun p q => Before p q ∨ Before q p := ⟨fun _ _ h => h.symm⟩
  have hpairwise : (ts.zip ts').Pairwise fun p q => Before p q ∨ Before q p :=
    (pairwise_before ordered ordered').imp .inl
  by_cases heq : p = q
  · exact .inl heq
  · exact .inr (hpairwise.forall hp hq heq)

/-- Tokens in order against other tokens in order. -/
def ofTokens {start stop start' stop' : Nat} {ts ts' : List Token} (ordered : Ordered start ts stop)
    (ordered' : Ordered start' ts' stop') : Alignment where
  starts a a' := ∃ p ∈ ts.zip ts', a = p.1.extent.start ∧ a' = p.2.extent.start
  stops a a' := ∃ p ∈ ts.zip ts', a = p.1.extent.stop ∧ a' = p.2.extent.stop
  starts_le := by
    rintro _ _ _ _ ⟨p, hp, rfl, rfl⟩ ⟨q, hq, rfl, rfl⟩
    obtain ⟨rfl | ⟨_, _⟩ | ⟨_, _⟩, _⟩ := before_or ordered ordered' hp hq <;> omega
  stops_le := by
    rintro _ _ _ _ ⟨p, hp, rfl, rfl⟩ ⟨q, hq, rfl, rfl⟩
    obtain ⟨rfl | ⟨_, _⟩ | ⟨_, _⟩, _⟩ := before_or ordered ordered' hp hq <;> omega
  stop_le_start := by
    rintro _ _ _ _ ⟨p, hp, rfl, rfl⟩ ⟨q, hq, rfl, rfl⟩
    obtain ⟨rfl | ⟨_, _⟩ | ⟨_, _⟩, _⟩ := before_or ordered ordered' hp hq <;> omega

end Alignment

/-! ## Following -/

/-- Where a computation succeeds, so does another one, with a result that is related. -/
def Follows {ε α β : Type} (R : α → β → Prop) (x : Except ε α) (y : Except ε β) : Prop :=
  ∀ a, x = .ok a → ∃ b, y = .ok b ∧ R a b

namespace Follows

variable {ε α β γ δ : Type} {R : α → β → Prop} {R' : γ → δ → Prop} {x : Except ε α} {y : Except ε β}

theorem ok {a : α} {b : β} (h : R a b) : Follows R (.ok a : Except ε α) (.ok b) := by
  rintro _ ⟨⟩
  exact ⟨b, rfl, h⟩

theorem error {e : ε} : Follows R (.error e) y := nofun

theorem bind {f : α → Except ε γ} {g : β → Except ε δ} (h : Follows R x y)
    (hfg : ∀ a b, R a b → Follows R' (f a) (g b)) : Follows R' (x >>= f) (y >>= g) := by
  intro c hc
  obtain ⟨a, ha, hc⟩ := bind_eq_ok.1 hc
  obtain ⟨b, hb, hab⟩ := h a ha
  obtain ⟨d, hd, hcd⟩ := hfg a b hab c hc
  exact ⟨d, bind_eq_ok.2 ⟨b, hb, hd⟩, hcd⟩

theorem ite {c : Prop} [Decidable c] {x' : Except ε α} {y' : Except ε β} (h : Follows R x y)
    (h' : Follows R x' y') : Follows R (if c then x else x') (if c then y else y') := by
  split
  · exact h
  · exact h'

theorem checked {e e' : Extent} (r : Except Refusal α) : Follows Eq (e.checked r) (e'.checked r) := by
  intro a ha
  exact ⟨a, checked_eq_ok.2 (checked_eq_ok.1 ha), rfl⟩

end Follows

namespace Alignment

variable {m : Alignment} {g : Grammar} {a b op op' opening opening' close close' : Extent}
  {xs xs' contents contents' : List Operand}

/-! ## Reduction -/

theorem forall₂_takeWhile {α β : Type} {R : α → β → Prop} {p : α → Bool} {q : β → Bool} {xs : List α}
    {ys : List β} (h : List.Forall₂ R xs ys) (hpq : ∀ x y, R x y → p x = q y) :
    List.Forall₂ R (xs.takeWhile p) (ys.takeWhile q) := by
  induction h with
  | nil => exact .nil
  | @cons x y xs ys hxy _ ih =>
    rw [List.takeWhile_cons, List.takeWhile_cons, hpq x y hxy]
    split
    · exact .cons hxy ih
    · exact .nil

/-- Two lists of corresponding operands. -/
abbrev Pairs (m : Alignment) (p p' : List Operand × List Operand) : Prop :=
  List.Forall₂ m.Operands p.1 p'.1 ∧ List.Forall₂ m.Operands p.2 p'.2

theorem splitRight (hop : m.Extents op op') (h : List.Forall₂ m.Operands xs xs') :
    m.Pairs (Operand.splitRight op xs) (Operand.splitRight op' xs') := by
  have hright := forall₂_takeWhile h fun x y hxy => hxy.extent.rightOf_eq hop
  refine ⟨List.rel_reverse hright, ?_⟩
  simp only [Operand.splitRight]
  rw [hright.length_eq]
  exact List.forall₂_drop _ h

/-- Operands start behind one boundary if those that they correspond to start behind another. -/
def Boundaries (m : Alignment) (boundary boundary' : Nat) : Prop :=
  ∀ x x', m.Operands x x' → (boundary ≤ x.extent.start ↔ boundary' ≤ x'.extent.start)

theorem splitLeft {boundary boundary' : Nat} (count : Nat) (hboundary : m.Boundaries boundary boundary')
    (h : List.Forall₂ m.Operands xs xs') :
    m.Pairs (Operand.splitLeft boundary count xs) (Operand.splitLeft boundary' count xs') := by
  have hle (x x' : Operand) (hx : m.Operands x x') :
      decide (boundary ≤ x.extent.start) = decide (boundary' ≤ x'.extent.start) :=
    decide_eq_decide.2 (hboundary x x' hx)
  have hleft := forall₂_takeWhile (List.forall₂_take count h) hle
  refine ⟨List.rel_reverse hleft, ?_⟩
  simp only [Operand.splitLeft]
  rw [hleft.length_eq]
  exact List.forall₂_drop _ h

theorem arrange {positions : List Side} {left left' right right' : List Operand}
    (hleft : List.Forall₂ m.Operands left left') (hright : List.Forall₂ m.Operands right right') :
    List.Forall₂ m.Operands (Operand.arrange positions left right)
      (Operand.arrange positions left' right') := by
  induction positions generalizing left left' right right' with
  | nil => exact .nil
  | cons side positions ih =>
    cases side with
    | left =>
      cases hleft with
      | nil => exact ih .nil hright
      | cons hx hleft => exact .cons hx (ih hleft hright)
    | right =>
      cases hright with
      | nil => exact ih hleft .nil
      | cons hx hright => exact .cons hx (ih hleft hright)

theorem takeOperands {positions : List Side} {boundary boundary' : Nat} (hop : m.Extents op op')
    (hboundary : m.Boundaries boundary boundary') (h : List.Forall₂ m.Operands xs xs') :
    Follows m.Pairs (Parlance.takeOperands op positions boundary xs)
      (Parlance.takeOperands op' positions boundary' xs') := by
  obtain ⟨hright, hrest⟩ := splitRight hop h
  obtain ⟨hleft, hrest'⟩ := splitLeft (positions.count .left) hboundary hrest
  simp only [Parlance.takeOperands, hright.length_eq, hleft.length_eq]
  split
  · exact .error
  split
  · exact .error
  split
  · exact .error
  · exact .ok ⟨arrange hleft hright, hrest'⟩

theorem boundaryOf {below below' : List Activation} (h : List.Forall₂ m.Activations below below') :
    m.Boundaries (Parlance.boundaryOf below) (Parlance.boundaryOf below') := by
  intro x x' hx
  cases h with
  | nil => simp [Parlance.boundaryOf]
  | cons ha _ => exact m.stop_le_start ha.token.extent.stop hx.extent.start

theorem reduce {top top' : Activation} {below below' : List Activation} (htop : m.Activations top top')
    (hbelow : List.Forall₂ m.Activations below below') (h : List.Forall₂ m.Operands xs xs') :
    Follows (List.Forall₂ m.Operands) (Parlance.reduce g top below xs)
      (Parlance.reduce g top' below' xs') := by
  have hextent := htop.token.extent
  simp only [Parlance.reduce, Activation.rule, htop.token.rule, htop.token.text]
  cases g.kind top'.token.rule with
  | operator positions precedence build =>
    refine (takeOperands hextent (boundaryOf hbelow) h).bind fun p p' hp => ?_
    obtain ⟨hargs, hrest⟩ := hp
    simp only [exprs_of_operands hargs]
    refine (Follows.checked _).bind fun expr expr' hexpr => ?_
    exact .ok (.cons ⟨hexpr, hextent.coverAll (extents_of_operands hargs)⟩ hrest)
  | bracketOpen | functionCall | collectionBracket | listDelimiter => exact .error
  | terminal | operand | collectionAccessor | bracketClose => exact .ok h

theorem foldWhile {folds : RuleKind → Bool} {operators operators' : List Activation}
    (hoperators : List.Forall₂ m.Activations operators operators')
    (h : List.Forall₂ m.Operands xs xs') :
    Follows (fun p p' => List.Forall₂ m.Activations p.1 p'.1 ∧ List.Forall₂ m.Operands p.2 p'.2)
      (Parlance.foldWhile g folds operators xs) (Parlance.foldWhile g folds operators' xs') := by
  induction hoperators generalizing xs xs' with
  | nil => exact .ok ⟨.nil, h⟩
  | @cons top top' below below' htop hbelow ih =>
    simp only [Parlance.foldWhile, Activation.rule, htop.token.rule]
    split
    · exact (reduce htop hbelow h).bind fun ys ys' hys => ih hys
    · exact .ok ⟨.cons htop hbelow, h⟩

variable {s s' : ParseState} {t t' : Token}

theorem States.foldWhile {folds : RuleKind → Bool} (h : m.States s s') :
    Follows m.States (s.foldWhile g folds) (s'.foldWhile g folds) :=
  (Alignment.foldWhile h.operators h.operands).bind fun _ _ hp => .ok ⟨h.parameters, hp.2, hp.1⟩

theorem States.pushOperand {x x' : Operand} (h : m.States s s') (hx : m.Operands x x') :
    m.States (s.pushOperand x) (s'.pushOperand x') :=
  ⟨h.parameters, .cons hx h.operands, h.operators⟩

theorem States.await (h : m.States s s') (ht : m.Tokens t t') : m.States (s.await t) (s'.await t') :=
  ⟨h.parameters, h.operands, .cons ⟨ht, rfl⟩ h.operators⟩

/-! ## Calls -/

/-- Arguments that convert alike. -/
def Converted : Except Mistyped (List Expr) → Except Mistyped (List Expr) → Prop
  | .ok exprs, .ok exprs' => exprs = exprs'
  | .error _, .error _ => True
  | _, _ => False

theorem convertArgs {types : List ValueType} (h : List.Forall₂ m.Operands contents contents') :
    Follows Converted (Parlance.convertArgs contents types) (Parlance.convertArgs contents' types) := by
  induction h generalizing types with
  | nil => exact .ok rfl
  | @cons x x' contents contents' hx _ ih =>
    cases types with
    | nil => exact .ok rfl
    | cons type types =>
      simp only [Parlance.convertArgs, hx.expr]
      split
      · refine ih.bind fun r r' hr => ?_
        cases r with
        | ok => cases r' with
          | ok => exact .ok (congrArg _ hr)
          | error => exact hr.elim
        | error => cases r' with
          | ok => exact hr.elim
          | error => exact .ok trivial
      · exact .ok trivial
      · exact .error
      · exact .error

theorem convert {o : Overload} (h : List.Forall₂ m.Operands contents contents') :
    Follows Converted (o.convert contents) (o.convert contents') := by
  unfold Overload.convert
  split
  · exact convertArgs h
  · exact .ok (exprs_of_operands h)

theorem callFirst {args args' : Extent} {single : Bool}
    (h : List.Forall₂ m.Operands contents contents') (candidates : List Overload) :
    Follows Eq (Parlance.callFirst contents opening args single candidates)
      (Parlance.callFirst contents' opening' args' single candidates) := by
  induction candidates with
  | nil => exact .error
  | cons o candidates ih =>
    refine (convert h).bind fun r r' hr => ?_
    match r, r', hr with
    | .ok exprs, .ok _, rfl => exact .checked _
    | .error _, .error _, _ =>
      dsimp only
      split
      · exact .error
      · exact ih

/-- The gap before an extent does not matter to what covers both. -/
theorem cover_gap_cover (ha : a.start ≤ a.stop) (hb : b.start ≤ b.stop) :
    (a.cover (a.gap b)).cover b = a.cover b := by
  simp only [Extent.cover, Extent.gap, Extent.mk.injEq]
  omega

theorem callFunction {overloads : List Overload} (h : List.Forall₂ m.Operands contents contents')
    (hopening : m.Extents opening opening') (hclose : m.Extents close close') :
    Follows m.Operands (Parlance.callFunction overloads contents opening close)
      (Parlance.callFunction overloads contents' opening' close') := by
  have hextent : m.Extents
      ((opening.cover (if contents.isEmpty then opening.gap close else Operand.coverAll contents)).cover
        close)
      ((opening'.cover (if contents'.isEmpty then opening'.gap close' else
        Operand.coverAll contents')).cover close') := by
    cases h with
    | nil =>
      have hcover := hopening.cover hclose
      rw [← cover_gap_cover hopening.width hclose.width,
        ← cover_gap_cover hopening.width' hclose.width'] at hcover
      exact hcover
    | cons hx hxs => exact (hopening.cover (coverAll_operands (.cons hx hxs) nofun)).cover hclose
  simp only [Parlance.callFunction, h.length_eq]
  split
  · exact .error
  · exact (callFirst h _).bind fun expr expr' hexpr => .ok ⟨hexpr, hextent⟩

/-! ## Brackets -/

theorem singleContent (h : List.Forall₂ m.Operands contents contents')
    (hopening : m.Extents opening opening') (hclose : m.Extents close close') :
    Follows m.Operands (Parlance.singleContent contents opening close)
      (Parlance.singleContent contents' opening' close') := by
  match contents, contents', h with
  | [], [], .nil => exact .error
  | [x], [x'], .cons hx .nil => exact .ok ⟨hx.expr, (hopening.cover hx.extent).cover hclose⟩
  | _ :: _ :: _, _ :: _ :: _, .cons _ (.cons _ _) => exact .error

/-- Corresponding operands with those below them. -/
abbrev Tops (m : Alignment) (p p' : Operand × List Operand) : Prop :=
  m.Operands p.1 p'.1 ∧ List.Forall₂ m.Operands p.2 p'.2

theorem takeSource (hopening : m.Extents opening opening') (h : List.Forall₂ m.Operands xs xs') :
    Follows m.Tops (Parlance.takeSource opening xs) (Parlance.takeSource opening' xs') := by
  cases h with
  | nil => exact .error
  | cons hx hxs =>
    simp only [Parlance.takeSource, hx.extent.leftOf_eq hopening]
    split
    · exact .ok ⟨hx, hxs⟩
    · exact .error

theorem States.applyContents {top top' : Activation} (h : m.States s s')
    (htop : m.Activations top top') (hcontents : List.Forall₂ m.Operands contents contents')
    (hclose : m.Extents close close') :
    Follows m.States (s.applyContents g top contents close) (s'.applyContents g top' contents' close') := by
  have hopening := htop.token.extent
  have hsingle : Follows m.States
      (do return s.pushOperand (← Parlance.singleContent contents top.extent close))
      (do return s'.pushOperand (← Parlance.singleContent contents' top'.extent close')) :=
    (singleContent hcontents hopening hclose).bind fun x x' hx => .ok (h.pushOperand hx)
  have hhead : contents.head?.map Operand.expr = contents'.head?.map Operand.expr := by
    cases hcontents with
    | nil => rfl
    | cons hx _ => exact congrArg some hx.expr
  simp only [ParseState.applyContents, Activation.rule, htop.token.rule, htop.token.text, htop.slot,
    h.parameters]
  cases hk : g.kind top'.token.rule with
  | functionCall overloads =>
    exact (callFunction hcontents hopening hclose).bind fun x x' hx => .ok (h.pushOperand hx)
  | collectionBracket build =>
    simp only [hhead]
    rcases hcontents with _ | ⟨-, _ | -⟩
    case cons.cons => exact .error
    all_goals
      refine (takeSource hopening h.operands).bind fun p p' hp => ?_
      obtain ⟨x, rest⟩ := p
      obtain ⟨x', rest'⟩ := p'
      obtain ⟨hx, hrest⟩ := hp
      have hexpr : x.expr = x'.expr := hx.expr
      have hextent := (hx.extent.cover hopening).cover hclose
      simp only [hexpr]
      split
      · exact .error
      · refine (Follows.checked _).bind fun expr expr' hexpr => ?_
        exact .ok ⟨rfl, .cons ⟨hexpr, hextent⟩ hrest, h.operators⟩
  | terminal | operand | operator | bracketOpen | bracketClose | listDelimiter
    | collectionAccessor => exact hsingle

/-- Corresponding operands on top, or none on either side. -/
theorem takeBetween? (ha : m.Extents a a') (hb : m.Extents b b')
    (h : List.Forall₂ m.Operands xs xs') :
    Option.Rel m.Tops (Parlance.takeBetween? a b xs) (Parlance.takeBetween? a' b' xs') := by
  cases h with
  | nil => exact .none
  | cons hx hxs =>
    simp only [Parlance.takeBetween?, hx.extent.isBetween_eq ha hb]
    split
    · exact .some ⟨hx, hxs⟩
    · exact .none

/-- Corresponding brackets have been unwound. -/
structure Unwounds (m : Alignment) (u u' : Unwound) : Prop where
  top : m.Activations u.top u'.top
  contents : List.Forall₂ m.Operands u.contents u'.contents
  operators : List.Forall₂ m.Activations u.operators u'.operators
  operands : List.Forall₂ m.Operands u.operands u'.operands

theorem unwind {links : BracketLinks} {previous previous' : Extent} {separated : Bool}
    {operators operators' : List Activation}
    (hoperators : List.Forall₂ m.Activations operators operators')
    (h : List.Forall₂ m.Operands xs xs') (hcontents : List.Forall₂ m.Operands contents contents')
    (hprevious : m.Extents previous previous') :
    Follows m.Unwounds (Parlance.unwind g links close previous separated contents operators xs)
      (Parlance.unwind g links close' previous' separated contents' operators' xs') := by
  induction hoperators generalizing xs xs' contents contents' previous previous' separated with
  | nil => exact .error
  | @cons top top' below below' htop hbelow ih =>
    have hopening : m.Extents top.extent top'.extent := htop.token.extent
    have htake := takeBetween? hopening hprevious h
    simp only [Parlance.unwind, Activation.rule, htop.token.rule]
    generalize Parlance.takeBetween? top.extent previous xs = taken at htake ⊢
    generalize Parlance.takeBetween? top'.extent previous' xs' = taken' at htake ⊢
    split
    · cases htake with
      | none => exact .ite .error (.ok ⟨htop, hcontents, hbelow, h⟩)
      | some hx => exact .ok ⟨htop, .cons hx.1 hcontents, hbelow, hx.2⟩
    split
    · cases htake with
      | none => exact .error
      | some hx => exact ih hx.2 (.cons hx.1 hcontents) hopening
    · exact (reduce htop hbelow h).bind fun ys ys' hys => ih hys hcontents hprevious

theorem States.closed (h : m.States s s') (ht : m.Tokens t t') :
    Follows m.States (s.close g t) (s'.close g t') := by
  have hextent := ht.extent
  simp only [ParseState.close, ht.rule]
  refine (unwind h.operators h.operands .nil hextent).bind fun u u' hu => ?_
  have hbelow : m.States ⟨s.parameters, u.operands, u.operators⟩
      ⟨s'.parameters, u'.operands, u'.operators⟩ := ⟨h.parameters, hu.operands, hu.operators⟩
  exact hbelow.applyContents hu.top hu.contents hextent

/-! ## Tokens -/

/-- Corresponding sources and activations. -/
abbrev Sources (m : Alignment) (p p' : Operand × Activation × List Activation) : Prop :=
  m.Operands p.1 p'.1 ∧ m.Activations p.2.1 p'.2.1 ∧ List.Forall₂ m.Activations p.2.2 p'.2.2

theorem States.accessorSource (h : m.States s s') :
    Follows m.Sources (s.accessorSource g t) (s'.accessorSource g t') := by
  obtain ⟨parameters, operands, operators⟩ := s
  obtain ⟨parameters', operands', operators'⟩ := s'
  obtain ⟨hparameters, hoperands, hoperators⟩ := h
  cases hoperators with
  | nil => exact .error
  | @cons top top' below below' htop hbelow =>
    have hopening := htop.token.extent
    have hstarted : operands.head?.any (·.extent.rightOf top.extent) =
        operands'.head?.any (·.extent.rightOf top'.extent) := by
      cases hoperands with
      | nil => rfl
      | cons hx _ => exact hx.extent.rightOf_eq hopening
    simp only [ParseState.accessorSource, Activation.rule, htop.token.rule, htop.slot, hstarted]
    refine .ite .error ?_
    exact (takeSource hopening hoperands).bind fun p p' hp => .ok ⟨hp.1, htop, hbelow⟩

theorem States.declareAccessor (h : m.States s s') (ht : m.Tokens t t') :
    Follows m.States (s.declareAccessor g t) (s'.declareAccessor g t') := by
  refine h.accessorSource.bind fun ⟨x, top, below⟩ ⟨x', top', below'⟩ ⟨hx, htop, hbelow⟩ => ?_
  have hexpr : x.expr = x'.expr := hx.expr
  simp only [hexpr, ht.text, h.parameters]
  split
  · exact .error
  split
  · exact .error
  · exact .ok ⟨rfl, h.operands, .cons ⟨htop.token, rfl⟩ hbelow⟩

/-- Corresponding tokens make corresponding states of such states. -/
theorem States.apply (h : m.States s s') (ht : m.Tokens t t') :
    Follows m.States (s.apply g t) (s'.apply g t') := by
  simp only [ParseState.apply, ht.rule]
  cases g.kind t'.rule with
  | terminal => exact .ok h
  | operand build =>
    simp only [ht.text, h.parameters]
    refine (Follows.checked _).bind fun expr expr' hexpr => ?_
    exact .ok (h.pushOperand ⟨hexpr, ht.extent⟩)
  | operator positions precedence build =>
    cases precedence with
    | none => exact .ok (h.await ht)
    | some precedence =>
      dsimp only
      split
      · exact h.foldWhile.bind fun s s' hs => .ok (hs.await ht)
      · exact .ok (h.await ht)
  | collectionBracket build => exact h.foldWhile.bind fun s s' hs => .ok (hs.await ht)
  | bracketOpen | functionCall | listDelimiter => exact .ok (h.await ht)
  | collectionAccessor => exact h.declareAccessor ht
  | bracketClose opens delimiter => exact h.closed ht

theorem States.applyAll {ts ts' : List Token} (h : m.States s s')
    (hts : List.Forall₂ m.Tokens ts ts') : Follows m.States (s.applyAll g ts) (s'.applyAll g ts') := by
  induction hts generalizing s s' with
  | nil => exact .ok h
  | cons ht _ ih => exact (h.apply ht).bind fun s s' hs => ih hs

theorem States.finish (h : m.States s s') : Follows Eq (s.finish g) (s'.finish g) := by
  refine h.foldWhile.bind fun ⟨_, operands, _⟩ ⟨_, operands', _⟩ hs => ?_
  match operands, operands', hs.operands with
  | [], [], _ => exact .error
  | [x], [x'], .cons hx _ => exact .ok hx.expr
  | _ :: _ :: _, _ :: _ :: _, _ => exact .error

/-- Tokens in order correspond to those of the same rules and texts in the same order. -/
theorem forall₂_ofTokens {start stop start' stop' : Nat} {ts ts' : List Token}
    (ordered : Ordered start ts stop) (ordered' : Ordered start' ts' stop')
    (h : List.Forall₂ (fun t t' => t.rule = t'.rule ∧ t.text = t'.text) ts ts') :
    List.Forall₂ (ofTokens ordered ordered').Tokens ts ts' := by
  refine (List.forall₂_iff_zip.2 ⟨h.length_eq, fun {t t'} hmem => ?_⟩)
  obtain ⟨hrule, htext⟩ := List.forall₂_iff_zip.1 h |>.2 hmem
  have hmem' := List.of_mem_zip hmem
  exact ⟨hrule, htext, ⟨(t, t'), hmem, rfl, rfl⟩, ⟨(t, t'), hmem, rfl, rfl⟩,
    (ordered.mem hmem'.1).2.1.le, (ordered'.mem hmem'.2).2.1.le⟩

end Alignment

/-- What a parse makes of its tokens depends on their rules, texts and order only. -/
theorem applyAll_finish_congr {g : Grammar} {parameters : List Parameter}
    {start stop start' stop' : Nat} {ts ts' : List Token} (ordered : Ordered start ts stop)
    (ordered' : Ordered start' ts' stop')
    (h : List.Forall₂ (fun t t' => t.rule = t'.rule ∧ t.text = t'.text) ts ts') {e : Expr}
    (he : ((ParseState.start parameters).applyAll g ts >>= (·.finish g)) = .ok e) :
    ((ParseState.start parameters).applyAll g ts' >>= (·.finish g)) = .ok e := by
  have htokens := Alignment.forall₂_ofTokens ordered ordered' h
  have hstart : (Alignment.ofTokens ordered ordered').States (ParseState.start parameters)
      (ParseState.start parameters) := ⟨rfl, .nil, .nil⟩
  have hfollows : Follows Eq ((ParseState.start parameters).applyAll g ts >>= (·.finish g))
      ((ParseState.start parameters).applyAll g ts' >>= (·.finish g)) :=
    (hstart.applyAll htokens).bind fun s s' hs => hs.finish
  obtain ⟨_, he', rfl⟩ := hfollows e he
  exact he'

end Parlance
