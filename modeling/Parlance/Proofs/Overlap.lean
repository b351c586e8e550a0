import Parlance.Proofs.Layers
import Parlance.Proofs.Nesting

/-!
# Operands that stand apart

Operands on the stack stand apart from one another, in the order of the stack (`ParseState.Apart`), as
long as close brackets are tidy (`ParseState.Tidy`): they leave no operand of what they hold behind, and
what they make does not reach back over an operator. A bracket that is no collection bracket takes the
operand on top for its contents and does not look at those below, so that the two numbers in `(1 2)` are
not refused; that is the one way for a bracket to leave operands that overlap.
-/

namespace Parlance

namespace ParseState

/-- The operands on the stack are not empty, and each stands behind those below it. -/
structure Apart (s : ParseState) : Prop where
  width : ∀ x ∈ s.operands, x.extent.start < x.extent.stop
  sorted : s.operands.Pairwise fun x y => y.extent.stop ≤ x.extent.start

/-- What a close bracket makes of a state has no other operand from inside of the bracket, and its result
stands behind what still waits. -/
def Tidy (s s' : ParseState) : Prop :=
  ∃ above opening result others, s.operators = above ++ opening :: s'.operators ∧
    s'.operands = result :: others ∧ (∀ y ∈ others, y.extent.start < opening.extent.stop) ∧
    ∀ a ∈ s'.operators, a.extent.stop ≤ result.extent.start

end ParseState

namespace Trace

variable {g : Grammar} {operators below : List Pending} {operands results rest : List Derived}
  {top : Pending} {x source : Derived} {stop stop' : Nat} {t : Token} {s s' : Trace}

/-- What waits and the operands stand apart, each stack in its order, up to an offset. -/
structure Spread (operators : List Pending) (operands : List Derived) (stop : Nat) : Prop where
  queued : Queued operators stop
  within : ∀ x ∈ operands, x.extent.start < x.extent.stop ∧ x.extent.stop ≤ stop
  sorted : operands.Pairwise fun x y => y.extent.stop ≤ x.extent.start
  clear : ∀ a ∈ operators, ∀ x ∈ operands,
    a.extent.stop ≤ x.extent.start ∨ x.extent.stop ≤ a.extent.start

namespace Spread

theorem mono (h : Spread operators operands stop) (hle : stop ≤ stop') :
    Spread operators operands stop' where
  queued := h.queued.mono hle
  within := fun x hx => ⟨(h.within x hx).1, (h.within x hx).2.trans hle⟩
  sorted := h.sorted
  clear := h.clear

theorem sublist (h : Spread operators operands stop) (hsub : rest.Sublist operands) :
    Spread operators rest stop where
  queued := h.queued
  within := fun x hx => h.within x (hsub.mem hx)
  sorted := h.sorted.sublist hsub
  clear := fun a ha x hx => h.clear a ha x (hsub.mem hx)

theorem drop (h : Spread (top :: below) operands stop) : Spread below operands stop where
  queued := h.queued.2.2.mono h.queued.start_le
  within := h.within
  sorted := h.sorted
  clear := fun a ha => h.clear a (List.mem_cons_of_mem top ha)

theorem await (h : Spread operators operands stop) (ht : Ordered stop [t] stop') :
    Spread (⟨⟨t, none⟩, none⟩ :: operators) operands stop' where
  queued := ⟨ht.2.2, ht.2.1, h.queued.mono ht.1⟩
  within := (h.mono (ht.1.trans (ht.2.1.le.trans ht.2.2))).within
  sorted := h.sorted
  clear := List.forall_mem_cons.2 ⟨fun x hx => .inr ((h.within x hx).2.trans ht.1), h.clear⟩

/-- An operand that stands behind all others and all that waits. -/
theorem push (h : Spread operators operands stop) (hstop : x.extent.stop ≤ stop)
    (hwidth : x.extent.start < x.extent.stop)
    (hoperands : ∀ y ∈ operands, y.extent.stop ≤ x.extent.start)
    (hoperators : ∀ a ∈ operators, a.extent.stop ≤ x.extent.start) :
    Spread operators (x :: operands) stop where
  queued := h.queued
  within := List.forall_mem_cons.2 ⟨⟨hwidth, hstop⟩, h.within⟩
  sorted := List.pairwise_cons.2 ⟨hoperands, h.sorted⟩
  clear := fun a ha => List.forall_mem_cons.2 ⟨.inl (hoperators a ha), h.clear a ha⟩

theorem apart (h : Spread s.operators s.operands stop) : s.state.Apart where
  width := by
    intro x hx
    obtain ⟨y, hy, rfl⟩ := List.mem_map.1 hx
    exact (h.within y hy).1
  sorted := List.pairwise_map.2 h.sorted

/-! ## Steps -/

/-- What an operator covers are the extents of operands that it takes. -/
theorem exists_of_mem_arrange {positions : List Side} {left right : List Derived} {e : Extent}
    (h : e ∈ (Operand.arrange positions (left.map Derived.operand)
      (right.map Derived.operand)).map Operand.extent) :
    ∃ y, (y ∈ left ∨ y ∈ right) ∧ y.extent = e := by
  obtain ⟨o, ho, rfl⟩ := List.mem_map.1 h
  rcases mem_arrange ho with ho | ho <;> obtain ⟨y, hy, rfl⟩ := List.mem_map.1 ho
  · exact ⟨y, .inl hy, rfl⟩
  · exact ⟨y, .inr hy, rfl⟩

/-- The operands that an operator leaves stand in front of it: the first one that is not behind it does,
and so do those below. -/
theorem before_of_split {positions : List Side} {boundary : Nat} {left right : List Derived}
    (h : Spread (top :: below) operands stop)
    (hs : Split Derived.extent top.extent positions boundary operands left right rest) :
    ∀ y ∈ rest, y.extent.stop ≤ top.extent.start := by
  intro y hy
  have hmem : y ∈ left.reverse ++ rest := List.mem_append_right _ hy
  have hoperand : y ∈ operands := hs.stack_eq ▸ List.mem_append_right _ hmem
  refine (h.clear top List.mem_cons_self y hoperand).resolve_left fun hafter => ?_
  have hwidth := (h.within y hoperand).1
  have hfirst : ∀ z ∈ (left.reverse ++ rest).head?, z.extent.start < top.extent.stop := hs.before
  have hbelow := (List.pairwise_append.1 (hs.stack_eq ▸ h.sorted)).2.1
  cases hstack : left.reverse ++ rest with
  | nil =>
    rw [hstack] at hmem
    cases hmem
  | cons z zs =>
    rw [hstack] at hfirst hmem hbelow
    have hz := hfirst z rfl
    rcases List.mem_cons.1 hmem with rfl | hmem
    · omega
    · have := List.rel_of_pairwise_cons hbelow hmem
      omega

/-- The result of an operator takes the place of its operands: all that it covers stands behind the
operands that stay and behind what waits below. -/
theorem reduce (h : Spread (top :: below) operands stop) (hr : Reduced g top below operands results) :
    Spread below results stop := by
  cases hr with
  | inert => exact h.drop
  | @operation positions precedence build left right rest expr hk hs hb =>
    have hsub : rest.Sublist operands := by
      rw [hs.stack_eq]
      exact (List.sublist_append_right _ _).trans (List.sublist_append_right _ _)
    have hmem : ∀ y, y ∈ left ∨ y ∈ right → y ∈ operands := by
      intro y hy
      rw [hs.stack_eq]
      simp only [List.mem_append, List.mem_reverse]
      tauto
    obtain ⟨-, hbelow, hright⟩ := List.pairwise_append.1 (hs.stack_eq ▸ h.sorted)
    have hleft := (List.pairwise_append.1 hbelow).2.2
    have hargs := @exists_of_mem_arrange positions left right
    have hwithin := @coverAll_within 0 stop _ _ ⟨Nat.zero_le _, h.queued.1⟩ fun e he => by
      obtain ⟨y, hy, rfl⟩ := hargs he
      exact ⟨Nat.zero_le _, (h.within y (hmem y hy)).2⟩
    have hcovers := coverAll_covers top.extent ((Operand.arrange positions
      (left.map Derived.operand) (right.map Derived.operand)).map Operand.extent)
    refine (h.drop.sublist hsub).push hwithin.2 ?_ (fun y hy => ?_) fun a ha => ?_
    · exact (hcovers.1.trans_lt h.queued.2.1).trans_le hcovers.2
    · refine le_start_coverAll (h.before_of_split hs y hy) fun e he => ?_
      obtain ⟨z, hz | hz, rfl⟩ := hargs he
      · exact hleft z (List.mem_reverse.2 hz) y hy
      · exact hright z (List.mem_reverse.2 hz) y (List.mem_append_right _ hy)
    · refine le_start_coverAll (h.queued.2.2.mem ha).2 fun e he => ?_
      obtain ⟨z, hz | hz, rfl⟩ := hargs he
      · exact (h.queued.2.2.stop_le_boundary ha).trans (hs.inside z hz)
      · exact (h.queued.2.2.mem ha).2.trans (h.queued.2.1.le.trans (hs.after z hz))

theorem foldWhile {folds : RuleKind → Bool} {operators' : List Pending}
    (h : Spread operators operands stop)
    (hf : Trace.foldWhile g folds operators operands = some (operators', results)) :
    Spread operators' results stop :=
  @foldWhile_induction g folds (fun operators operands => Spread operators operands stop)
    (fun h hr => h.reduce hr) _ _ _ _ h hf

theorem named (h : Spread s.operators s.operands stop) (hn : Named g s t s') :
    Spread s'.operators s'.operands stop := by
  cases hn with
  | intro operators =>
    rw [operators] at h
    exact ⟨⟨h.queued.1, h.queued.2⟩, h.within, h.sorted,
      List.forall_mem_cons.2 (List.forall_mem_cons.1 h.clear)⟩

end Spread

/-! ## Brackets -/

/-- The stacks while a bracket is unwound: what has been taken away stands behind all that still
waits. -/
structure Freeing (all : List Pending) (contents : List Derived) (operators : List Pending)
    (operands : List Derived) (stop : Nat) : Prop where
  waits : ∃ above, all = above ++ operators
  spread : Spread operators operands stop
  behind : ∀ x ∈ contents, (∀ a ∈ operators, a.extent.stop ≤ x.extent.start) ∧ x.extent.stop ≤ stop

namespace Freeing

variable {all : List Pending} {contents : List Derived}

theorem drop (h : Freeing all contents (top :: below) operands stop) :
    Freeing all contents below operands stop where
  waits := by
    obtain ⟨above, rfl⟩ := h.waits
    exact ⟨above ++ [top], List.append_cons above top below⟩
  spread := h.spread.drop
  behind := fun x hx => ⟨fun a ha => (h.behind x hx).1 a (List.mem_cons_of_mem top ha), (h.behind x hx).2⟩

theorem reduce (h : Freeing all contents (top :: below) operands stop)
    (hr : Reduced g top below operands results) : Freeing all contents below results stop :=
  ⟨h.drop.waits, h.spread.reduce hr, h.drop.behind⟩

/-- The operand behind what waits on top is taken away. -/
theorem take (h : Freeing all contents (top :: below) (x :: rest) stop)
    (hx : top.extent.stop ≤ x.extent.start) :
    Freeing all (x :: contents) (top :: below) rest stop where
  waits := h.waits
  spread := h.spread.sublist (List.sublist_cons_self x rest)
  behind := List.forall_mem_cons.2
    ⟨⟨h.spread.queued.stop_le hx, (h.spread.within x List.mem_cons_self).2⟩, h.behind⟩

theorem unwind {links : BracketLinks} {previous : Extent} {u : Unwound}
    (h : Spread operators operands stop)
    (hu : Trace.unwind g links previous [] [] operators operands = some u) :
    links.opens.contains u.top.rule = true ∧
      Freeing operators u.contents (u.top :: u.operators) u.operands stop := by
  have hfirst : Freeing operators [] operators operands stop := ⟨⟨[], rfl⟩, h, by simp⟩
  obtain ⟨hopens, previous, contents, operands', h, hlast⟩ :=
    @unwind_induction g _ (fun _ contents _ waiting operands =>
        Freeing operators contents waiting operands stop)
      (fun h hr => h.reduce hr) (fun _ hafter _ h => (h.take hafter).drop) _ _ _ _ _ _ hfirst hu
  refine ⟨hopens, ?_⟩
  rcases hlast with ⟨x, rfl, hcontents, hafter, -⟩ | ⟨-, rfl, hcontents⟩
  · rw [hcontents]
    exact h.take hafter
  · rwa [hcontents]

end Freeing

/-- What a close bracket makes of a state: its result starts with the bracket, or with the collection in
front of it, and below it is what the bracket has not taken. -/
structure Bracketed (g : Grammar) (s s' : Trace) (opening : Pending) (result : Derived)
    (others : List Derived) (mid stop : Nat) : Prop where
  waits : ∃ above, s.operators = above ++ opening :: s'.operators
  operands : s'.operands = result :: others
  spread : Spread (opening :: s'.operators) others mid
  width : result.extent.start < result.extent.stop
  stop_le : result.extent.stop ≤ stop
  starts : result.extent.start = opening.extent.start ∧
      (∀ build, g.kind opening.rule ≠ .collectionBracket build) ∨
    ∃ source, Spread (opening :: s'.operators) (source :: others) mid ∧
      source.extent.stop ≤ opening.extent.start ∧ result.extent.start = source.extent.start

theorem bracketed_of_closed {mid : Nat} (h : Spread s.operators s.operands mid)
    (ht : Ordered mid [t] stop) (hc : Closed g s t s') :
    ∃ opening result others, (g.linksOf t.rule).opens.contains opening.rule = true ∧
      Bracketed g s s' opening result others mid stop := by
  -- A bracket that is no collection bracket extends from its opening to its close.
  have hbracket {u : Unwound} {result : Derived} {others : List Derived} {parameters : List Parameter}
      (hu : Freeing s.operators u.contents (u.top :: u.operators) others mid)
      (hkind : ∀ build, g.kind u.top.rule ≠ .collectionBracket build)
      (hextent : result.extent = ⟨u.top.extent.start, t.extent.stop⟩) :
      Bracketed g s ⟨parameters, result :: others, u.operators⟩ u.top result others mid stop := by
    refine ⟨hu.waits, rfl, hu.spread, ?_, ?_, .inl ⟨by rw [hextent], hkind⟩⟩
    · rw [hextent]
      exact (hu.spread.queued.start_le.trans ht.1).trans_lt ht.2.1
    · rw [hextent]
      exact ht.2.2
  cases hc with
  | @call u overloads result unwound kind called =>
    obtain ⟨hopens, hu⟩ := Freeing.unwind h unwound
    have htop := hu.spread.queued
    have hle := htop.1.trans ht.1
    refine ⟨u.top, _, _, hopens, hbracket hu (fun build hbuild => ?_) ?_⟩
    · rw [kind] at hbuild
      cases hbuild
    · refine called_extent (called_of_callFunction called) htop.2.1.le (htop.2.1.le.trans hle)
        (hle.trans ht.2.1.le) ht.2.1.le fun x hx => ?_
      obtain ⟨y, hy, rfl⟩ := List.mem_map.1 hx
      obtain ⟨hbehind, hstop⟩ := hu.behind y hy
      exact ⟨htop.2.1.le.trans (hbehind u.top List.mem_cons_self),
        hstop.trans (ht.1.trans ht.2.1.le)⟩
  | @collection u build source rest element expr unwound kind single operands before element_eq built =>
    obtain ⟨hopens, hu⟩ := Freeing.unwind h unwound
    rw [operands] at hu
    have htop := hu.spread.queued
    have hsource := hu.spread.within source List.mem_cons_self
    have hle := htop.1.trans ht.1
    have hwidth := ht.2.1
    have hstart := hsource.1.le.trans (hsource.2.trans ht.1)
    have hextent : (source.extent.cover u.top.extent).cover t.extent =
        ⟨source.extent.start, t.extent.stop⟩ :=
      cover_cover_eq (hsource.1.le.trans before) hstart (hsource.2.trans (ht.1.trans hwidth.le))
        (hle.trans hwidth.le)
    refine ⟨u.top, _, rest, hopens, hu.waits, rfl,
      hu.spread.sublist (List.sublist_cons_self source rest), ?_, ?_, .inr ⟨source, hu.spread, before, ?_⟩⟩
    · rw [show Derived.extent _ = _ from hextent]
      exact hstart.trans_lt hwidth
    · rw [show Derived.extent _ = _ from hextent]
      exact ht.2.2
    · rw [show Derived.extent _ = _ from hextent]
  | @bracket u inner unwound kind single =>
    obtain ⟨hopens, hu⟩ := Freeing.unwind h unwound
    have htop := hu.spread.queued
    have hle := htop.1.trans ht.1
    obtain ⟨hbehind, hstop⟩ := hu.behind inner (by simp [single])
    refine ⟨u.top, _, _, hopens, hbracket hu kind.2 ?_⟩
    exact cover_cover_eq (htop.2.1.le.trans (hbehind u.top List.mem_cons_self)) (htop.2.1.le.trans hle)
      (hle.trans ht.2.1.le) (hstop.trans (ht.1.trans ht.2.1.le))

namespace Bracketed

variable {opening : Pending} {result : Derived} {others : List Derived} {mid : Nat}

/-- The result stands behind the others exactly if none of these is from inside of the bracket. -/
theorem behind_iff (h : Bracketed g s s' opening result others mid stop) :
    (∀ y ∈ others, y.extent.stop ≤ result.extent.start) ↔
      ∀ y ∈ others, y.extent.start < opening.extent.stop := by
  refine forall₂_congr fun y hy => ?_
  have hwidth := (h.spread.within y hy).1
  have hopening := h.spread.queued.2.1
  rcases h.starts with ⟨hstart, -⟩ | ⟨source, hspread, hbefore, hstart⟩
  · have hclear := h.spread.clear opening List.mem_cons_self y hy
    omega
  · have hsource := (hspread.within source List.mem_cons_self).1
    have hsorted := List.rel_of_pairwise_cons hspread.sorted hy
    omega

theorem behind_of_collection {build : CollectionBuilder}
    (h : Bracketed g s s' opening result others mid stop)
    (hkind : g.kind opening.rule = .collectionBracket build) :
    ∀ y ∈ others, y.extent.stop ≤ result.extent.start := by
  rcases h.starts with ⟨-, hplain⟩ | ⟨source, hspread, -, hstart⟩
  · exact absurd hkind (hplain build)
  · rw [hstart]
    exact fun y hy => List.rel_of_pairwise_cons hspread.sorted hy

theorem apart_iff (h : Bracketed g s s' opening result others mid stop) :
    s'.state.Apart ↔ ∀ y ∈ others, y.extent.stop ≤ result.extent.start := by
  have hstate : s'.state.operands = (result :: others).map Derived.operand :=
    congrArg (List.map Derived.operand) h.operands
  constructor
  · intro hapart y hy
    have hsorted := hapart.sorted
    rw [hstate, List.pairwise_map] at hsorted
    exact List.rel_of_pairwise_cons hsorted hy
  · intro hbehind
    constructor
    · rw [hstate]
      intro x hx
      obtain ⟨y, hy, rfl⟩ := List.mem_map.1 hx
      rcases List.mem_cons.1 hy with rfl | hy
      · exact h.width
      · exact (h.spread.within y hy).1
    · rw [hstate, List.pairwise_map]
      exact List.pairwise_cons.2 ⟨hbehind, h.spread.sorted⟩

/-- After a tidy close bracket the stacks stand apart again. -/
theorem spread_of_tidy (h : Bracketed g s s' opening result others mid stop) (hle : mid ≤ stop)
    (htidy : s.state.Tidy s'.state) : Spread s'.operators s'.operands stop := by
  obtain ⟨above, opening', result', others', hwaits, hoperands, hinside, hbehind⟩ := htidy
  have hresult : result.operand = result' ∧ others.map Derived.operand = others' := by
    rw [Trace.state, h.operands] at hoperands
    exact List.cons.inj hoperands
  obtain ⟨rfl, rfl⟩ := hresult
  obtain ⟨above', hwaits'⟩ := h.waits
  have hopening : opening.activation = opening' := by
    have heq : (above'.map Pending.activation ++ [opening.activation]) ++
        s'.operators.map Pending.activation = (above ++ [opening']) ++ s'.state.operators := by
      rw [Trace.state, hwaits', List.map_append, List.map_cons] at hwaits
      simpa [Trace.state] using hwaits
    exact List.singleton_inj.1 (List.append_inj' (List.append_cancel_right heq) rfl).2
  subst hopening
  have hinside : ∀ y ∈ others, y.extent.start < opening.extent.stop := fun y hy =>
    hinside y.operand (List.mem_map_of_mem hy)
  have hoperators : ∀ a ∈ s'.operators, a.extent.stop ≤ result.extent.start := fun a ha =>
    hbehind a.activation (List.mem_map_of_mem ha)
  rw [h.operands]
  exact (h.spread.drop.mono hle).push h.stop_le h.width (h.behind_iff.2 hinside) hoperators

end Bracketed

end Trace

/-! ## Runs -/

section Runs

variable {g : Grammar} {parameters : List Parameter} {ts : List Token} {stop : Nat} {s : ParseState}

theorem Trace.exists_of_apply {r : Trace} {t : Token} {s' : ParseState}
    (h : r.state.apply g t = .ok s') : ∃ r', Trace.Applied g r t r' ∧ r'.state = s' := by
  have hstep := (Trace.state_apply g r t).trans (toOption_eq_some.2 h)
  obtain ⟨r', hr', hstate⟩ := Option.map_eq_some_iff.1 hstep
  exact ⟨r', Trace.applied_of_apply hr', hstate⟩

/-- As long as close brackets are tidy, the stacks stand apart. -/
theorem spread_of_applyAll (ordered : Ordered 0 ts stop)
    (run : (ParseState.start parameters).applyAll g ts = .ok s)
    (tidy : ∀ before c after s₁ s₂, ts = before ++ c :: after → (g.kind c.rule).isClose = true →
      (ParseState.start parameters).applyAll g before = .ok s₁ → s₁.apply g c = .ok s₂ →
        s₁.Tidy s₂) :
    ∃ r : Trace, r.state = s ∧ Trace.Spread r.operators r.operands stop := by
  induction ts using List.reverseRecOn generalizing s stop with
  | nil =>
    cases run
    exact ⟨Trace.start parameters, rfl, trivial, by simp [Trace.start], by simp [Trace.start],
      by simp [Trace.start]⟩
  | append_singleton ts t ih =>
    obtain ⟨mid, hordered, ht⟩ := Ordered.append_iff.1 ordered
    rw [applyAll_append] at run
    obtain ⟨s₁, hrun, hstep⟩ := bind_eq_ok.1 run
    obtain ⟨s', hstep, heq⟩ := bind_eq_ok.1 hstep
    cases heq
    obtain ⟨r, rfl, hr⟩ := ih hordered hrun fun before c after s₁ s₂ hts =>
      tidy before c (after ++ [t]) s₁ s₂ (by simp [hts])
    obtain ⟨r', happlied, rfl⟩ := Trace.exists_of_apply hstep
    refine ⟨r', rfl, ?_⟩
    have hle := ht.1.trans (ht.2.1.le.trans ht.2.2)
    cases happlied with
    | skip => exact hr.mono hle
    | operand =>
      exact (hr.mono hle).push ht.2.2 ht.2.1 (fun y hy => (hr.within y hy).2.trans ht.1)
        fun a ha => (hr.queued.mem ha).2.trans ht.1
    | waits _ folded => exact (hr.foldWhile (Trace.fold_eq_some.1 folded).2).await ht
    | named _ named => exact (hr.named named).mono hle
    | closed kind closed =>
      obtain ⟨opening, result, others, -, hbracketed⟩ := Trace.bracketed_of_closed hr ht closed
      exact hbracketed.spread_of_tidy hle
        (tidy ts t [] _ _ rfl (by rw [kind]; rfl) hrun hstep)

/-- As long as close brackets are tidy, the operands on the stack stand apart. The next close bracket
leaves them so exactly if no operand from inside of the bracket stays on the stack; a collection bracket
leaves none. -/
theorem operands_apart {rules : List Rule} {l : Language} (made : Language.make? rules = .ok l)
    (ordered : Ordered 0 ts stop)
    (run : (ParseState.start parameters).applyAll l.grammar ts = .ok s)
    (tidy : ∀ before c after s₁ s₂, ts = before ++ c :: after →
      (l.grammar.kind c.rule).isClose = true →
      (ParseState.start parameters).applyAll l.grammar before = .ok s₁ →
      s₁.apply l.grammar c = .ok s₂ → s₁.Tidy s₂) :
    s.Apart ∧ ∀ c s', (l.grammar.kind c.rule).isClose = true → stop ≤ c.extent.start →
      c.extent.start < c.extent.stop → s.apply l.grammar c = .ok s' →
      ∃ above opening result others, s.operators = above ++ opening :: s'.operators ∧
        l.grammar.Closes c opening.token ∧ s'.operands = result :: others ∧
        (s'.Apart ↔ ∀ y ∈ others, y.extent.start < opening.extent.stop) ∧
        ∀ build, l.grammar.kind opening.rule = .collectionBracket build → s'.Apart := by
  obtain ⟨r, rfl, hr⟩ := spread_of_applyAll ordered run tidy
  refine ⟨hr.apart, fun c s' hclose hstart hwidth hstep => ?_⟩
  obtain ⟨r', happlied, rfl⟩ := Trace.exists_of_apply hstep
  cases happlied with
  | skip kind | operand kind | named kind =>
    rw [kind] at hclose
    cases hclose
  | waits kind =>
    cases hk : l.grammar.kind c.rule <;> simp_all [RuleKind.isInert, RuleKind.isClose]
  | closed kind closed =>
    have hc : Ordered stop [c] c.extent.stop := ⟨hstart, hwidth, le_rfl⟩
    obtain ⟨opening, result, others, hopens, hbracketed⟩ := Trace.bracketed_of_closed hr hc closed
    obtain ⟨above, hwaits⟩ := hbracketed.waits
    have hcloses : l.grammar.Closes c opening.token :=
      ((linked_of_make? made).closes kind).1 hopens
    refine ⟨above.map Pending.activation, opening.activation, result.operand,
      others.map Derived.operand, ?_, hcloses, ?_, ?_, fun build hbuild => ?_⟩
    · rw [Trace.state, Trace.state, hwaits, List.map_append, List.map_cons]
    · rw [Trace.state, hbracketed.operands, List.map_cons]
    · rw [hbracketed.apart_iff, hbracketed.behind_iff, List.forall_mem_map]
    · exact hbracketed.apart_iff.2 (hbracketed.behind_of_collection hbuild)

end Runs

/-- A close bracket is tidy that leaves one operand and takes one opening off what waits before that
operand. -/
theorem ParseState.tidy_of_single {s s' : ParseState} {token : Token} {slot : Option Nat}
    (one : s'.operands.length = 1)
    (waits : s.operators.map (fun a => (a.token, a.slot)) =
      (token, slot) :: s'.operators.map fun a => (a.token, a.slot))
    (behind : ∀ a ∈ s'.operators, ∀ x ∈ s'.operands, a.extent.stop ≤ x.extent.start) : s.Tidy s' := by
  obtain ⟨result, hresult⟩ := List.length_eq_one_iff.1 one
  have hinjective : Function.Injective fun a : Activation => (a.token, a.slot) := by
    rintro ⟨t, n⟩ ⟨t', n'⟩ h
    cases h
    rfl
  have hoperators : s.operators = ⟨token, slot⟩ :: s'.operators := hinjective.list_map waits
  exact ⟨[], _, result, [], hoperators, hresult, List.forall_mem_nil _,
    fun a ha => behind a ha result (by simp [hresult])⟩

/-- The tokens of `max((2`. -/
def openedTokens : List Token := [⟨4, "max(", ⟨0, 4⟩⟩, ⟨5, "(", ⟨4, 5⟩⟩, ⟨0, "2", ⟨5, 6⟩⟩]

set_option maxRecDepth 100000 in
/-- The brackets in `max((2))` leave operands that stand apart. -/
theorem operands_apart_sum :
    let g := (Language.ofRules sumRules sumRules_fit).grammar
    ∃ s s', (ParseState.start []).applyAll g (openedTokens ++ [⟨7, ")", ⟨6, 7⟩⟩]) = .ok s ∧
      s.apply g ⟨7, ")", ⟨7, 8⟩⟩ = .ok s' ∧ s.Apart ∧ s'.Apart := by
  intro g
  let waits (s : ParseState) : List (Token × Option Nat) := s.operators.map fun a => (a.token, a.slot)
  have hrun : ((((ParseState.start []).applyAll g openedTokens).toOption.any fun s₁ =>
      (s₁.apply g ⟨7, ")", ⟨6, 7⟩⟩).toOption.any fun s =>
        s.operands.length == 1 && waits s₁ == (⟨5, "(", ⟨4, 5⟩⟩, none) :: waits s &&
          (s.operators.all fun a => s.operands.all fun x => a.extent.stop ≤ x.extent.start) &&
          (s.apply g ⟨7, ")", ⟨7, 8⟩⟩).toOption.any fun s' => s'.operands.length == 1) &&
      (openedTokens.all fun t => !(g.kind t.rule).isClose) && (g.kind 7).isClose) = true := by
    decide +kernel
  simp only [Bool.and_eq_true, Option.any_eq_true, toOption_eq_some, beq_iff_eq, List.all_eq_true,
    decide_eq_true_eq] at hrun
  obtain ⟨⟨⟨s₁, hs₁, s, hclose, ⟨⟨hsingle, hwaits⟩, hbehind⟩, s', hs', hone⟩, hkinds⟩, hkind⟩ := hrun
  have hs : (ParseState.start []).applyAll g (openedTokens ++ [⟨7, ")", ⟨6, 7⟩⟩]) = .ok s := by
    rw [applyAll_append, hs₁]
    change s₁.applyAll g [_] = .ok s
    rw [applyAll_cons, hclose]
    rfl
  obtain ⟨hapart, hnext⟩ := @operands_apart [] _ 7 s sumRules _ (make?_eq_ofRules sumRules_fit)
    (by decide) hs fun before c after s₂ s₃ htokens hc h₂ h₃ => by
      rcases append_cons_eq htokens with ⟨rfl, rfl, -⟩ | ⟨es, -, hnil⟩ | ⟨es, hopened, -⟩
      · cases hs₁.symm.trans h₂
        cases hclose.symm.trans h₃
        exact ParseState.tidy_of_single hsingle hwaits hbehind
      · simp at hnil
      · have hopen := hkinds c (by simp [hopened])
        rw [hc] at hopen
        cases hopen
  obtain ⟨_, _, result, others, -, -, hoperands, hiff, -⟩ :=
    hnext _ s' hkind (by decide) (by decide) hs'
  obtain rfl : others = [] := by
    rw [hoperands] at hone
    simpa using hone
  exact ⟨s, s', hs, hs', hapart, hiff.2 (List.forall_mem_nil _)⟩

/-- Numbers in brackets, and an operator that takes the two operands behind it. -/
def pairRules : List Rule :=
  [.operand "NUMBER" "[0-9]+" fun _ => .ok .null, .ignoring "SPACE" " +",
    .operator "PAIR" "&" (some 1) [.right, .right] fun _ => .ok .null, .bracketOpen "OPEN" "\\(",
    .bracketClose "CLOSE" "\\)" ["OPEN"] none]

set_option maxRecDepth 100000 in
/-- The bracket in `&(1 2)` holds two numbers with nothing to join them. Its close is not refused: it
leaves the first number on the stack, inside of what the bracket has made of the second one, and the
operator in front takes both. -/
theorem not_apart_pair :
    ∃ l, Language.make? pairRules = .ok l ∧ (l.parse "&(1 2)" []).toOption.isSome = true ∧
    ∃ s, (ParseState.start []).applyAll l.grammar (l.scanner.scan "&(1 2)").tokens = .ok s ∧
      s.operands.map Operand.extent = [⟨1, 6⟩, ⟨2, 3⟩] ∧ ¬ s.Apart := by
  have hrun : ((Language.make? pairRules).toOption.any fun l =>
      (l.parse "&(1 2)" []).toOption.isSome &&
        ((ParseState.start []).applyAll l.grammar (l.scanner.scan "&(1 2)").tokens).toOption.any fun s =>
          s.operands.map Operand.extent == [⟨1, 6⟩, ⟨2, 3⟩]) = true := by decide +kernel
  simp only [Bool.and_eq_true, Option.any_eq_true, toOption_eq_some, beq_iff_eq] at hrun
  obtain ⟨l, hl, haccept, s, hs, hextents⟩ := hrun
  refine ⟨l, hl, haccept, s, hs, hextents, fun hapart => ?_⟩
  have hsorted : (s.operands.map Operand.extent).Pairwise fun x y => y.stop ≤ x.start :=
    List.pairwise_map.2 hapart.sorted
  rw [hextents] at hsorted
  exact absurd (List.rel_of_pairwise_cons hsorted List.mem_cons_self) (by decide)

end Parlance
