import Mathlib.Data.List.Infix
import Parlance.Proofs.Acceptance
import Parlance.Proofs.Sides

/-!
# What is reduced before an operator waits

An operator with a precedence that takes an operand from its left first reduces what is due
(`RuleKind.isDue`): what binds at least as tightly, and what takes nothing from its right. It stops at
the first operator without a precedence, also at one that stands behind its operand; then it has no
operand to its left, for what is in front of that operator is out of its reach (`Trace.Barred`). So over
plain rules whose builders never refuse, those tokens are accepted that are an expression in which no
operator waits on behind its operand (`accepts_iff_releases`).
-/

namespace Parlance

/-! ## Operators right above others -/

namespace Trace

variable {g : Grammar} {a b c top : Pending} {operators below operators' : List Pending}
  {operands results : List Derived} {stop mid : Nat} {t : Token} {s s' : Trace}

/-- The former waits right above the latter. -/
inductive Adjacent (a b : Pending) : List Pending → Prop
  | here (below : List Pending) : Adjacent a b (a :: b :: below)
  | above {c : Pending} {operators : List Pending} (h : Adjacent a b operators) :
      Adjacent a b (c :: operators)

theorem Adjacent.mem (h : Adjacent a b operators) : a ∈ operators := by
  induction h with
  | here below => exact List.mem_cons_self
  | above _ ih => exact List.mem_cons_of_mem _ ih

/-- An operator waits right above another one, and no operand stands between the two. -/
structure Barred (a b : Pending) (operators : List Pending) (operands : List Derived) (stop : Nat) :
    Prop where
  sided : Sided operators operands stop
  adjacent : Adjacent a b operators
  apart : ∀ x ∈ operands, b.extent.stop ≤ x.extent.start → a.extent.stop ≤ x.extent.start

namespace Barred

/-- The upper one finds no operand to its left. -/
theorem not_reduced (h : Barred a b (a :: b :: below) operands stop)
    (ha : Side.left ∈ (g.kind a.rule).positions) : ¬ Reduced g a (b :: below) operands results := by
  intro hr
  cases hr with
  | inert hk => cases hkind : g.kind a.rule <;> simp_all [RuleKind.isInert, RuleKind.positions]
  | @operation positions precedence build left right rest expr hk hs hb =>
    rw [hk] at ha
    have hlength : left.length ≠ 0 := by
      rw [hs.length_left]
      exact fun hcount => List.count_eq_zero.1 hcount ha
    obtain ⟨x, hx⟩ : ∃ x, left.reverse.head? = some x := by
      rw [List.head?_reverse]
      exact Option.isSome_iff_exists.1 (by simpa [List.getLast?_isSome] using hlength)
    have hmem : x ∈ left := List.mem_reverse.1 (List.mem_of_mem_head? hx)
    have hbefore : x.extent.start < a.extent.stop := hs.before x (by simp [hx])
    have hinside : b.extent.stop ≤ x.extent.start := hs.inside x hmem
    have hstack : x ∈ operands := by
      rw [hs.stack_eq]
      simp [hmem]
    exact absurd (h.apart x hstack hinside) (Nat.not_le.2 hbefore)

theorem reduce (h : Barred a b (top :: below) operands stop)
    (ha : Side.left ∈ (g.kind a.rule).positions) (hr : Reduced g top below operands results) :
    Barred a b below results stop := by
  have hsided := h.sided.reduce hr
  have hqueued := h.sided.queued
  generalize hoperators : top :: below = waiting at h
  cases h.adjacent with
  | here =>
    cases hoperators
    exact absurd hr (h.not_reduced ha)
  | above hadjacent =>
    cases hoperators
    refine ⟨hsided, hadjacent, ?_⟩
    cases hr with
    | inert => exact h.apart
    | @operation positions precedence build left right rest expr hk hs hb =>
      have htop := (hqueued.2.2.mem hadjacent.mem).2
      have hargs := @Spread.exists_of_mem_arrange positions left right
      refine List.forall_mem_cons.2 ⟨fun _ => le_start_coverAll htop fun e he => ?_, fun x hx => ?_⟩
      · obtain ⟨y, hy | hy, rfl⟩ := hargs he
        · exact (hqueued.2.2.stop_le_boundary hadjacent.mem).trans (hs.inside y hy)
        · exact htop.trans (hqueued.2.1.le.trans (hs.after y hy))
      · refine h.apart x ?_
        rw [hs.stack_eq]
        simp [hx]

theorem foldWhile {folds : RuleKind → Bool} (h : Barred a b operators operands stop)
    (ha : Side.left ∈ (g.kind a.rule).positions)
    (hf : Trace.foldWhile g folds operators operands = some (operators', results)) :
    Barred a b operators' results stop :=
  @foldWhile_induction g folds (fun operators operands => Barred a b operators operands stop)
    (fun h hr => h.reduce ha hr) _ _ _ _ h hf

/-- A close bracket does not come down to the two. -/
theorem unwind {links : BracketLinks} {previous : Extent} {u : Unwound}
    (h : Barred a b operators operands stop) (ha : Side.left ∈ (g.kind a.rule).positions)
    (hlinks : links.opens.contains a.rule = false ∧ links.delimiter ≠ some a.rule)
    (hu : Trace.unwind g links previous [] [] operators operands = some u) :
    Adjacent a b u.operators ∧
      ∀ x ∈ u.operands, b.extent.stop ≤ x.extent.start → a.extent.stop ≤ x.extent.start := by
  obtain ⟨hopens, previous, contents, operands', h, hlast⟩ :=
    @unwind_induction g links (fun _ _ _ waiting operands => Barred a b waiting operands stop)
      (fun h hr => h.reduce ha hr)
      (fun {_ _ _ top below x rest} hdelimiter hafter _ h => by
        refine ⟨(h.sided.pop (h.sided.queued.stop_le hafter)).drop, ?_,
          fun y hy => h.apart y (List.mem_cons_of_mem x hy)⟩
        cases h.adjacent with
        | here => exact absurd hdelimiter hlinks.2
        | above hadjacent => exact hadjacent)
      _ _ _ _ _ _ h hu
  constructor
  · generalize hwaiting : u.top :: u.operators = waiting at h
    cases h.adjacent with
    | here =>
      obtain ⟨htop, -⟩ := List.cons.inj hwaiting
      rw [htop, hlinks.1] at hopens
      cases hopens
    | above hadjacent =>
      obtain ⟨-, hrest⟩ := List.cons.inj hwaiting
      exact hrest ▸ hadjacent
  · intro x hx
    rcases hlast with ⟨y, rfl, -⟩ | ⟨-, rfl, -⟩
    · exact h.apart x (List.mem_cons_of_mem y hx)
    · exact h.apart x hx

theorem closed (linked : g.Linked) (h : Barred a b s.operators s.operands mid)
    (ha : Side.left ∈ (g.kind a.rule).positions) (ht : Ordered mid [t] stop) {opens : List String}
    {delimiter : Option String} (hk : g.kind t.rule = .bracketClose opens delimiter)
    (hc : Closed g s t s') : Barred a b s'.operators s'.operands stop := by
  have hsided := h.sided.closed ht hc
  have hlinks : (g.linksOf t.rule).opens.contains a.rule = false ∧
      (g.linksOf t.rule).delimiter ≠ some a.rule := by
    cases hkind : g.kind a.rule with
    | operator positions precedence build =>
      exact Arguments.not_linked linked hk ⟨precedence, build, hkind⟩
    | _ => simp [hkind, RuleKind.positions] at ha
  -- What the bracket becomes starts where the bracket does, or where its source does.
  have hresult {u : Unwound}
      (hu : Trace.unwind g (g.linksOf t.rule) t.extent [] [] s.operators s.operands = some u) :
      a.extent.stop ≤ u.top.extent.start ∧ u.top.extent.start < u.top.extent.stop ∧
        u.top.extent.start ≤ t.extent.start ∧
        ∀ x ∈ u.contents, u.top.extent.start ≤ x.extent.start := by
    have hqueued := (h.sided.unwind hu).queued
    have hcontents := (enclosed_of_unwind h.sided.queued ht.1 hu).contents
    have htop := (hqueued.2.2.mem (h.unwind ha hlinks hu).1.mem).2
    have hwidth := hqueued.2.1
    have hstop := hqueued.1.trans ht.1
    exact ⟨htop, hwidth, hwidth.le.trans hstop, fun x hx => hwidth.le.trans (hcontents x hx).1⟩
  cases hc with
  | @call u overloads result hu kind called =>
    obtain ⟨hadjacent, hapart⟩ := h.unwind ha hlinks hu
    obtain ⟨htop, hwidth, hclose, hcontents⟩ := hresult hu
    have hstart := (called_start (called_of_callFunction called) hwidth.le hclose fun x hx => by
      obtain ⟨y, hy, rfl⟩ := List.mem_map.1 hx
      exact hcontents y hy).1
    exact ⟨hsided, hadjacent, List.forall_mem_cons.2 ⟨fun _ => htop.trans hstart.ge, hapart⟩⟩
  | @collection u build source rest element expr hu kind single operands before element_eq built =>
    obtain ⟨hadjacent, hapart⟩ := h.unwind ha hlinks hu
    obtain ⟨htop, hwidth, hclose, -⟩ := hresult hu
    rw [operands] at hapart
    obtain ⟨hsource, hapart⟩ := List.forall_mem_cons.1 hapart
    refine ⟨hsided, hadjacent, List.forall_mem_cons.2 ⟨fun hstart => ?_, hapart⟩⟩
    simp only [Extent.cover] at hstart ⊢
    have := hsource (by omega)
    omega
  | @bracket u inner hu kind single =>
    obtain ⟨hadjacent, hapart⟩ := h.unwind ha hlinks hu
    obtain ⟨htop, hwidth, hclose, hcontents⟩ := hresult hu
    have hinner := hcontents inner (by simp [single])
    refine ⟨hsided, hadjacent, List.forall_mem_cons.2 ⟨fun _ => ?_, hapart⟩⟩
    simp only [Extent.cover]
    omega

theorem apply (linked : g.Linked) (h : Barred a b s.operators s.operands mid)
    (ha : Side.left ∈ (g.kind a.rule).positions) (ht : Ordered mid [t] stop)
    (happly : Applied g s t s') : Barred a b s'.operators s'.operands stop := by
  have hsided := h.sided.apply ht happly
  cases happly with
  | skip => exact ⟨hsided, h.adjacent, h.apart⟩
  | operand =>
    have hstart := (h.sided.queued.mem h.adjacent.mem).2.trans ht.1
    exact ⟨hsided, h.adjacent, List.forall_mem_cons.2 ⟨fun _ => hstart, h.apart⟩⟩
  | waits _ folded =>
    have hfold := h.foldWhile ha (fold_eq_some.1 folded).2
    exact ⟨hsided, .above hfold.adjacent, hfold.apart⟩
  | named _ named =>
    refine ⟨hsided, ?_, ?_⟩
    · cases named with
      | @intro top below source rest build element operators kind =>
        have hadjacent := operators ▸ h.adjacent
        cases hadjacent with
        | here => simp [kind, RuleKind.positions] at ha
        | above hadjacent => exact .above hadjacent
    · cases named with
      | intro => exact h.apart
  | closed kind closed => exact h.closed linked ha ht kind closed

theorem applyAll (linked : g.Linked) {ts : List Token} (h : Barred a b s.operators s.operands mid)
    (ha : Side.left ∈ (g.kind a.rule).positions) (ordered : Ordered mid ts stop)
    (run : s.applyAll g ts = some s') : Barred a b s'.operators s'.operands stop := by
  induction ts generalizing s mid with
  | nil =>
    cases run
    exact ⟨h.sided.mono ordered, h.adjacent, h.apart⟩
  | cons t ts ih =>
    obtain ⟨s₁, hs₁, run⟩ := Option.bind_eq_some_iff.1 run
    have ht : Ordered mid [t] t.extent.stop := ⟨ordered.1, ordered.2.1, le_rfl⟩
    exact ih (h.apply linked ha ht (applied_of_apply hs₁)) ordered.2.2 run

/-- At the end both are to be reduced, which fails. -/
theorem not_finish (h : Barred a b s.operators s.operands stop)
    (ha : Side.left ∈ (g.kind a.rule).positions) : s.finish g = none := by
  by_contra hsome
  obtain ⟨x, hx⟩ := Option.ne_none_iff_exists'.1 hsome
  obtain ⟨s', hfold, -⟩ := Option.bind_eq_some_iff.1 hx
  have hfold := (fold_eq_some.1 hfold).2
  have hadjacent := (h.foldWhile ha hfold).adjacent
  rw [foldWhile_true hfold] at hadjacent
  cases hadjacent

end Barred

/-- An operator waits right above what does not yield to it. -/
theorem apply_of_stays {o : Token} {top : Pending} {below : List Pending}
    (ho : Side.left ∈ (g.kind o.rule).positions) (htop : s.operators = top :: below)
    (hstays : ∀ p, (g.kind o.rule).precedence? = some p → yieldsTo p (g.kind top.rule) = false) :
    s.apply g o = some (s.await o) := by
  cases hk : g.kind o.rule with
  | operator positions precedence build =>
    cases precedence with
    | none => exact apply_of_wait hk (.inl rfl)
    | some p =>
      rw [hk] at ho
      have hstays : yieldsTo p (g.kind top.rule) = false := hstays p (by rw [hk]; rfl)
      rw [apply_of_fold hk ho, htop, Trace.foldWhile, if_neg (by simp [hstays])]
      simp [await, htop]
  | _ => simp [hk, RuleKind.positions] at ho

/-- An operator that takes an operand from its left comes to wait right above one that stands behind its
operand, if one of the two has no precedence. -/
theorem barred_of_not_releases {parameters : List Parameter} {ts : List Token} {q o : Token}
    (ordered : Ordered 0 (ts ++ [q, o]) stop)
    (run : (Trace.start parameters).applyAll g (ts ++ [q, o]) = some s)
    (hq : g.IsOperator [.left] q) (ho : Side.left ∈ (g.kind o.rule).positions)
    (hranked : ¬ ((g.kind q.rule).precedence?.isSome = true ∧
      (g.kind o.rule).precedence?.isSome = true)) :
    ∃ b, Barred ⟨⟨o, none⟩, none⟩ b s.operators s.operands stop := by
  have hsided := Sided.applyAll ordered run
  obtain ⟨mid, ordered, hplace, hwidth, -⟩ := Ordered.append_iff.1 ordered
  rw [applyAll_append] at run
  obtain ⟨s₀, run₀, run⟩ := Option.bind_eq_some_iff.1 run
  obtain ⟨s₁, hs₁, run⟩ := Option.bind_eq_some_iff.1 run
  have hwithin := ((Sided.applyAll ordered run₀).apply ⟨hplace, hwidth, le_rfl⟩
    (applied_of_apply hs₁)).within
  obtain ⟨precedence, build, hk⟩ := hq
  -- The former waits on top, whatever has been reduced before it, and does not yield to the latter.
  obtain ⟨below, htop⟩ : ∃ below, s₁.operators = ⟨⟨q, none⟩, none⟩ :: below := by
    cases applied_of_apply hs₁ with
    | skip kind => cases hk.symm.trans kind
    | operand kind => cases hk.symm.trans kind
    | waits => exact ⟨_, rfl⟩
    | named kind => cases hk.symm.trans kind
    | closed kind => cases hk.symm.trans kind
  have hstays : ∀ p, (g.kind o.rule).precedence? = some p → yieldsTo p (g.kind q.rule) = false := by
    intro p hp
    rw [hk, hp] at hranked
    cases precedence with
    | none => simp [hk, yieldsTo, RuleKind.precedence?]
    | some r => exact absurd ⟨rfl, rfl⟩ hranked
  rw [applyAll_singleton, apply_of_stays ho htop hstays] at run
  cases run
  refine ⟨⟨⟨q, none⟩, none⟩, hsided, ?_, fun x hx hbehind => ?_⟩
  · simp only [await, htop]
    exact .here below
  · have hx := hwithin x hx
    exact absurd (hx.1.trans_le hx.2) (Nat.not_lt.2 hbehind)

end Trace

/-! ## What is accepted -/

/-- A parse of the tokens succeeds. -/
def Grammar.Accepts (g : Grammar) (parameters : List Parameter) (ts : List Token) : Prop :=
  ∃ e, ((ParseState.start parameters).applyAll g ts >>= (·.finish g)) = .ok e

theorem RuleKind.Willing.plain {k : RuleKind} (h : k.Willing) : k.Plain := by
  cases k with
  | operator positions precedence build => exact h.1
  | terminal => exact h
  | collectionBracket build => exact h
  | collectionAccessor => exact h
  | _ => trivial

namespace Grammar

variable {g : Grammar} {parameters : List Parameter} {ts : List Token} {stop : Nat}

theorem accepts_iff_parse : g.Accepts parameters ts ↔ ∃ x, Trace.parse g parameters ts = some x := by
  have hexpr := Trace.expr_parse g parameters ts
  constructor
  · rintro ⟨e, he⟩
    rw [he] at hexpr
    obtain ⟨x, hx, -⟩ := Option.map_eq_some_iff.1 hexpr
    exact ⟨x, hx⟩
  · rintro ⟨x, hx⟩
    rw [hx] at hexpr
    exact ⟨x.expr, toOption_eq_some.1 hexpr.symm⟩

/-- No operator of what is accepted takes an operand from its left right behind one that waits on behind
its operand. -/
theorem Accepts.releases (linked : g.Linked) (ordered : Ordered 0 ts stop)
    (h : g.Accepts parameters ts) : ts.IsChain g.Releases := by
  obtain ⟨x, hx⟩ := accepts_iff_parse.1 h
  obtain ⟨s, run, hfinish⟩ := Option.bind_eq_some_iff.1 hx
  refine List.isChain_iff_forall_rel_of_append_cons_cons.2 ?_
  rintro q o before after rfl hq ho
  by_contra hranked
  rw [show before ++ q :: o :: after = (before ++ [q, o]) ++ after by simp] at ordered run
  obtain ⟨mid, ordered, ordered'⟩ := Ordered.append_iff.1 ordered
  rw [Trace.applyAll_append] at run
  obtain ⟨s₀, run₀, run⟩ := Option.bind_eq_some_iff.1 run
  obtain ⟨b, hbarred⟩ := Trace.barred_of_not_releases ordered run₀ hq ho hranked
  rw [(hbarred.applyAll linked ho ordered' run).not_finish ho] at hfinish
  cases hfinish

/-- Over plain rules whose builders never refuse those tokens are accepted that are an expression of the
grammar in which no operator waits on behind its operand. -/
theorem accepts_iff_releases (linked : g.Linked) (ordered : Ordered 0 ts stop)
    (willing : ∀ t ∈ ts, (g.kind t.rule).Willing) :
    g.Accepts parameters ts ↔ g.Derives .expression ts ∧ ts.IsChain g.Releases := by
  constructor
  · intro h
    obtain ⟨x, hx⟩ := accepts_iff_parse.1 h
    refine ⟨Derivation.derives_iff_formed.2 ⟨x.derivation, ?_⟩, h.releases linked ordered⟩
    exact Trace.formed_of_parse linked ordered (fun t ht => (willing t ht).plain) hx
  · rintro ⟨hderives, hreleases⟩
    obtain ⟨d, hd, rfl⟩ := Derivation.derives_iff_formed.1 hderives
    exact accepts_iff_parse.2 (Option.isSome_iff_exists.1
      ((Trace.parse_of_smooth parameters True linked hd ordered fun _ => ⟨willing, hreleases⟩).1 trivial))

end Grammar

/-! ## Which operators are reduced -/

/-- Whether an operator that waits is due before one of a precedence that takes an operand from its
left: it takes nothing from its right, or binds at least as tightly. -/
def RuleKind.isDue (precedence : Int) : RuleKind → Bool
  | operator positions rank _ => !positions.contains .right || rank.any (· ≤ precedence)
  | _ => false

/-- An operator yields if it is due and has a precedence. -/
theorem yieldsTo_eq (precedence : Int) (k : RuleKind) :
    yieldsTo precedence k = (k.precedence?.isSome && k.isDue precedence) := by
  cases k with
  | operator positions rank build =>
    cases rank with
    | none => rfl
    | some r => simp [yieldsTo, RuleKind.precedence?, RuleKind.positions, RuleKind.isDue, Bool.or_comm]
  | _ => rfl

theorem operators_of_foldWhile {g : Grammar} {folds : RuleKind → Bool}
    {operators operators' : List Activation} {operands results : List Operand}
    (h : foldWhile g folds operators operands = .ok (operators', results)) :
    operators' = operators.dropWhile fun a => folds (g.kind a.rule) := by
  induction operators generalizing operands with
  | nil =>
    cases h
    rfl
  | cons top below ih =>
    rw [List.dropWhile_cons]
    unfold foldWhile at h
    split at h
    · rename_i hfolds
      obtain ⟨next, -, h⟩ := bind_eq_ok.1 h
      rw [if_pos hfolds]
      exact ih h
    · rename_i hfolds
      cases h
      rw [if_neg hfolds]

/-- Of the operators on top that are due, those above the first one without a precedence are reduced. -/
theorem operators_of_apply {g : Grammar} {s s' : ParseState} {t : Token} {positions : List Side}
    {precedence : Int} {build : OperatorBuilder}
    (kind : g.kind t.rule = .operator positions (some precedence) build) (left : Side.left ∈ positions)
    (h : s.apply g t = .ok s') :
    ∃ rest, s.operators =
        ((s.operators.takeWhile fun a => (g.kind a.rule).isDue precedence).takeWhile fun a =>
          (g.kind a.rule).precedence?.isSome) ++ rest ∧
      s'.operators = ⟨t, none⟩ :: rest := by
  have hcontains : positions.contains .left = true := List.contains_iff_mem.2 left
  simp only [ParseState.apply, kind, hcontains, if_true] at h
  obtain ⟨s₁, hs₁, h⟩ := bind_eq_ok.1 h
  obtain ⟨⟨operators, operands⟩, hfold, hs₁⟩ := bind_eq_ok.1 hs₁
  cases hs₁
  cases h
  refine ⟨operators, ?_, rfl⟩
  rw [operators_of_foldWhile hfold, List.takeWhile_takeWhile]
  simp only [yieldsTo_eq, Bool.decide_eq_true, Bool.decide_and]
  exact List.takeWhile_append_dropWhile.symm

/-! ## Operators in a derivation -/

/-- Among tokens in order each stands once. -/
theorem Ordered.notMem {start stop : Nat} {ts us : List Token} {o : Token}
    (h : Ordered start (ts ++ o :: us) stop) : o ∉ ts ∧ o ∉ us := by
  have hwidth := (h.mem (List.mem_append_right ts List.mem_cons_self)).2.1
  obtain ⟨-, hbehind, hbefore⟩ := List.pairwise_append.1 h.pairwise
  constructor
  · intro hmem
    have := hbefore o hmem o List.mem_cons_self
    omega
  · intro hmem
    have := (List.pairwise_cons.1 hbehind).1 o hmem
    omega

namespace Derivation

variable {g : Grammar} {d e : Derivation} {t o p : Token} {positions : List Side}

theorem infix_tokensOf {ds : List Derivation} (h : d ∈ ds) : d.tokens <:+: tokensOf ds := by
  induction ds with
  | nil => cases h
  | cons e ds ih =>
    rw [tokensOf]
    rcases List.mem_cons.1 h with rfl | h
    · exact (List.prefix_append _ _).isInfix
    · exact (ih h).trans (List.suffix_append _ _).isInfix

theorem infix_followed {delimiters : List Token} {ds : List Derivation} (h : d ∈ ds) :
    d.tokens <:+: followed delimiters ds := by
  induction ds generalizing delimiters with
  | nil => cases h
  | cons e ds ih =>
    rw [followed]
    rcases List.mem_cons.1 h with rfl | h
    · exact ⟨_, _, rfl⟩
    · exact (ih h).trans (List.suffix_append _ _).isInfix

/-- The tokens of a part stand together in those of the whole. -/
theorem Part.infix_tokens (h : Part d e) : d.tokens <:+: e.tokens := by
  induction h with
  | refl => exact List.infix_rfl
  | left mem _ ih =>
    rw [tokens]
    exact ih.trans ((infix_tokensOf mem).trans (List.prefix_append _ _).isInfix)
  | @right op left right x mem _ ih =>
    rw [tokens, List.append_cons]
    exact ih.trans ((infix_tokensOf mem).trans (List.suffix_append _ _).isInfix)
  | @bracket opening close inner _ ih => exact ih.trans ⟨[opening], [close], rfl⟩
  | @call opening close args delimiters x mem _ ih =>
    refine ih.trans ?_
    cases args with
    | nil => cases mem
    | cons arg args =>
      rw [tokens]
      rcases List.mem_cons.1 mem with rfl | mem
      · exact ⟨[opening], followed delimiters args ++ [close], by simp⟩
      · exact (infix_followed mem).trans ⟨opening :: arg.tokens, [close], rfl⟩

theorem of_mem_followed {delimiters : List Token} {ds : List Derivation}
    (h : t ∈ followed delimiters ds) : t ∈ delimiters ∨ ∃ d ∈ ds, t ∈ d.tokens := by
  induction ds generalizing delimiters with
  | nil => cases h
  | cons d ds ih =>
    rw [followed, List.append_assoc] at h
    rcases List.mem_append.1 h with h | h
    · exact .inl (List.mem_of_mem_head? (Option.mem_toList.1 h))
    rcases List.mem_append.1 h with h | h
    · exact .inr ⟨d, List.mem_cons_self, h⟩
    rcases ih h with h | ⟨e, he, h⟩
    · exact .inl (List.mem_of_mem_tail h)
    · exact .inr ⟨e, List.mem_cons_of_mem d he, h⟩

/-- An operator among the tokens of a derivation is the operator of a part. -/
theorem Formed.exists_operation (linked : g.Linked) (h : d.Formed g) (hop : g.IsOperator positions o)
    (ho : o ∈ d.tokens) : ∃ left right, Part (operation o left right) d ∧
      (operation o left right).Formed g := by
  obtain ⟨precedence, build, hk⟩ := id hop
  induction h with
  | @token t ht =>
    obtain rfl := List.mem_singleton.1 ho
    simp [Grammar.isOperand, hk] at ht
  | @lead q right operator operand ih =>
    rw [tokens_lead] at ho
    rcases List.mem_cons.1 ho with rfl | ho
    · exact ⟨_, _, .refl, .lead operator operand⟩
    · obtain ⟨l, r, hpart, hformed⟩ := ih ho
      exact ⟨l, r, .right List.mem_cons_self hpart, hformed⟩
  | @trail q left operator operand ih =>
    rw [tokens_trail] at ho
    rcases List.mem_append.1 ho with ho | ho
    · obtain ⟨l, r, hpart, hformed⟩ := ih ho
      exact ⟨l, r, .left List.mem_cons_self hpart, hformed⟩
    · obtain rfl := List.mem_singleton.1 ho
      exact ⟨_, _, .refl, .trail operator operand⟩
  | @join q left right operator before after ihl ihr =>
    rw [tokens_join] at ho
    rcases List.mem_append.1 ho with ho | ho
    · obtain ⟨l, r, hpart, hformed⟩ := ihl ho
      exact ⟨l, r, .left List.mem_cons_self hpart, hformed⟩
    rcases List.mem_cons.1 ho with rfl | ho
    · exact ⟨_, _, .refl, .join operator before after⟩
    · obtain ⟨l, r, hpart, hformed⟩ := ihr ho
      exact ⟨l, r, .right List.mem_cons_self hpart, hformed⟩
  | @bracket opening close inner opens contents closes ih =>
    obtain ⟨names, delimiter, hclose, -⟩ := closes
    rw [tokens, List.cons_append, List.mem_cons, List.mem_append, List.mem_singleton] at ho
    rcases ho with rfl | ho | rfl
    · cases hk.symm.trans opens
    · obtain ⟨l, r, hpart, hformed⟩ := ih ho
      exact ⟨l, r, .bracket hpart, hformed⟩
    · cases hk.symm.trans hclose
  | @call opening close args delimiters opens contents separates length closes ih =>
    obtain ⟨overloads, hopen⟩ := opens
    obtain ⟨names, delimiter, hclose, -⟩ := closes
    have hinside : o ∈ delimiters ∨ ∃ d ∈ args, o ∈ d.tokens := by
      cases args with
      | nil =>
        simp only [tokens, List.mem_cons, List.not_mem_nil, or_false] at ho
        rcases ho with rfl | rfl
        · cases hk.symm.trans hopen
        · cases hk.symm.trans hclose
      | cons arg args =>
        simp only [tokens, List.cons_append, List.mem_cons, List.mem_append, List.append_assoc,
          List.not_mem_nil, or_false] at ho
        rcases ho with rfl | ho | ho | rfl
        · cases hk.symm.trans hopen
        · exact .inr ⟨arg, List.mem_cons_self, ho⟩
        · rcases of_mem_followed ho with ho | ⟨e, he, ho⟩
          · exact .inl ho
          · exact .inr ⟨e, List.mem_cons_of_mem arg he, ho⟩
        · cases hk.symm.trans hclose
    rcases hinside with ho | ⟨e, he, ho⟩
    · have hdelimiter := linked.isDelimiter (separates o ho)
      rw [hk] at hdelimiter
      cases hdelimiter
    · obtain ⟨l, r, hpart, hformed⟩ := ih e he ho
      exact ⟨l, r, .call he hpart, hformed⟩

/-- What stands right before an operator between two operands is inside its left operand. -/
theorem Formed.exists_left (linked : g.Linked) (h : d.Formed g) {x y : List Token} {stop : Nat}
    (htokens : d.tokens = x ++ p :: o :: y) (ordered : Ordered 0 (x ++ p :: o :: y) stop)
    (hp : g.IsOperator [.left] p) (ho : g.IsOperator [.left, .right] o) :
    ∃ left right inner, Part (operation o [left] [right]) d ∧ Part (operation p [inner] []) left := by
  obtain ⟨ls, rs, hpart, hformed⟩ := h.exists_operation linked ho (by simp [htokens])
  obtain ⟨left, right, rfl, rfl, hleft⟩ : ∃ left right, ls = [left] ∧ rs = [right] ∧ left.Formed g := by
    cases hformed with
    | lead operator => cases ho.unique operator
    | trail operator => cases ho.unique operator
    | join operator before after => exact ⟨_, _, rfl, rfl, before⟩
  obtain ⟨before, behind, hinfix⟩ := hpart.infix_tokens
  rw [htokens, tokens_join] at hinfix
  -- The operator stands at one place only, so its left operand ends where it begins.
  have hsplit : (before ++ left.tokens) ++ o :: (right.tokens ++ behind) = (x ++ [p]) ++ o :: y := by
    simpa using hinfix
  have honce := Ordered.notMem (hsplit ▸ List.append_cons x p (o :: y) ▸ ordered)
  have hends := ((List.append_cons_inj_of_notMem honce.1 honce.2).1 hsplit).1
  have hlast : left.tokens.getLast? = some p := by
    have hlast := congrArg List.getLast? hends
    rw [List.getLast?_concat, List.getLast?_append] at hlast
    obtain ⟨t, ht⟩ := Option.isSome_iff_exists.1
      (by simpa [List.getLast?_isSome] using hleft.tokens_ne_nil : left.tokens.getLast?.isSome = true)
    rwa [ht, Option.some_or, ← ht] at hlast
  obtain ⟨ls, rs, hinner, hformed⟩ :=
    hleft.exists_operation linked hp (List.mem_of_getLast? hlast)
  cases hformed with
  | lead operator => cases hp.unique operator
  | trail => exact ⟨left, right, _, hpart, hinner⟩
  | join operator => cases hp.unique operator

end Derivation

/-! ## Operators behind their operands -/

/-- An operator with a precedence that takes an operand from its left first reduces those of the
operators on top that are due and above the first one without a precedence. Over plain rules whose
builders never refuse, an operator between two operands may follow one behind its operand exactly if that
one has a precedence, whatever the operands are; it is inside the left operand then. -/
theorem due_operators_fold {rules : List Rule} {l : Language} (made : Language.make? rules = .ok l) :
    (∀ {s s' : ParseState} {t : Token} {positions : List Side} {precedence : Int}
        {build : OperatorBuilder},
      l.grammar.kind t.rule = .operator positions (some precedence) build → Side.left ∈ positions →
      s.apply l.grammar t = .ok s' →
      ∃ rest, s.operators =
          ((s.operators.takeWhile fun a => (l.grammar.kind a.rule).isDue precedence).takeWhile fun a =>
            (l.grammar.kind a.rule).precedence?.isSome) ++ rest ∧
        s'.operators = ⟨t, none⟩ :: rest) ∧
    ∀ {parameters : List Parameter} {x y : List Token} {p o : Token} {stop : Nat},
      Ordered 0 (x ++ p :: o :: y) stop →
      (∀ t ∈ x ++ p :: o :: y, (l.grammar.kind t.rule).Willing) →
      l.grammar.IsOperator [.left] p → l.grammar.IsOperator [.left, .right] o →
      (l.grammar.kind o.rule).precedence?.isSome = true →
      l.grammar.Accepts parameters (x ++ [p]) → l.grammar.Accepts parameters y →
      (l.grammar.Accepts parameters (x ++ p :: o :: y) ↔
        (l.grammar.kind p.rule).precedence?.isSome = true) ∧
      ∀ r, Trace.parse l.grammar parameters (x ++ p :: o :: y) = some r →
        ∃ left right inner, Derivation.Part (.operation o [left] [right]) r.derivation ∧
          Derivation.Part (.operation p [inner] []) left := by
  have linked := linked_of_make? made
  refine ⟨operators_of_apply, fun {parameters x y p o stop} ordered willing hp ho hranked hx hy => ?_⟩
  have hsplit : x ++ p :: o :: y = (x ++ [p]) ++ o :: y := List.append_cons x p (o :: y)
  have hleft : Side.left ∈ (l.grammar.kind o.rule).positions := by
    obtain ⟨precedence, build, hk⟩ := ho
    simp [hk, RuleKind.positions]
  obtain ⟨mid, orderedX, hplace, hwidth, orderedY⟩ := Ordered.append_iff.1 (hsplit ▸ ordered)
  have willingX : ∀ t ∈ x ++ [p], (l.grammar.kind t.rule).Willing := fun t ht =>
    willing t (hsplit ▸ List.mem_append_left _ ht)
  have willingY : ∀ t ∈ y, (l.grammar.kind t.rule).Willing := fun t ht =>
    willing t (hsplit ▸ List.mem_append_right _ (List.mem_cons_of_mem o ht))
  obtain ⟨derivesX, releasesX⟩ := (Grammar.accepts_iff_releases linked orderedX willingX).1 hx
  obtain ⟨derivesY, releasesY⟩ :=
    (Grammar.accepts_iff_releases linked (orderedY.mono (Nat.zero_le _) le_rfl) willingY).1 hy
  constructor
  · rw [Grammar.accepts_iff_releases linked ordered willing, hsplit]
    constructor
    · rintro ⟨-, hreleases⟩
      exact ((List.isChain_append.1 hreleases).2.2 p List.getLast?_concat o rfl hp hleft).1
    · intro hp'
      have hnext : ∀ t ∈ y.head?, l.grammar.Releases o t := fun t _ hop => by cases ho.unique hop
      have hjoin : ∀ q ∈ (x ++ [p]).getLast?, ∀ t ∈ (o :: y).head?, l.grammar.Releases q t := by
        intro q hq t ht _ _
        rw [List.getLast?_concat] at hq
        cases hq
        cases ht
        exact ⟨hp', hranked⟩
      exact ⟨derivesX.append ho rfl derivesY,
        List.isChain_append.2 ⟨releasesX, List.isChain_cons.2 ⟨hnext, releasesY⟩, hjoin⟩⟩
  · intro r hr
    obtain ⟨hformed, htokens⟩ :=
      Trace.formed_of_parse linked ordered (fun t ht => (willing t ht).plain) hr
    exact hformed.exists_left linked htokens ordered hp ho

/-- Rules for sums of numbers with two operators behind their operands, of which one has no
precedence. -/
def markRules : List Rule :=
  [.operand "NUMBER" "[0-9]+" fun _ => .ok .null,
    .operator "ADD" "\\+" (some 2) [.left, .right] fun _ => .ok .null,
    .operator "FACTORIAL" "!" (some 1) [.left] fun _ => .ok .null,
    .operator "MARK" "%" none [.left] fun _ => .ok .null]

set_option maxRecDepth 100000 in
theorem markRules_fit : (Language.make? markRules).toOption.isSome = true := by decide +kernel

/-- The grammar of these rules. -/
def markGrammar : Grammar := (Language.ofRules markRules markRules_fit).grammar

/-- The tokens of a text. -/
def markTokens (text : String) : List Token :=
  ((Language.ofRules markRules markRules_fit).scanner.scan text).tokens

theorem markGrammar_kind (t : Token) {r : Rule} (h : markRules[t.rule]? = some r) :
    markGrammar.kind t.rule = r.kind := by
  refine Grammar.kind_eq ?_
  rwa [show markGrammar.rules = markRules from (of_make? (make?_eq_ofRules markRules_fit)).1]

theorem markGrammar_willing {ts : List Token} (h : ∀ t ∈ ts, t.rule < markRules.length) :
    ∀ t ∈ ts, (markGrammar.kind t.rule).Willing := by
  have hrules : ∀ r ∈ markRules, r.kind.Willing := by
    simp [markRules, RuleKind.Willing, Rule.operand, Rule.operandIn, Rule.operator, Rule.operatorOf,
      fixities]
  intro t ht
  obtain ⟨r, hr, hk⟩ := kind_of_make? (make?_eq_ofRules markRules_fit) (h t ht)
  exact hk ▸ hrules r hr

set_option maxRecDepth 100000 in
/-- What the texts and their parts come to. -/
theorem mark_parses :
    (markTokens "3!+2" = [⟨0, "3", ⟨0, 1⟩⟩] ++ ⟨2, "!", ⟨1, 2⟩⟩ :: ⟨1, "+", ⟨2, 3⟩⟩ :: [⟨0, "2", ⟨3, 4⟩⟩] ∧
      markTokens "3%+2" = [⟨0, "3", ⟨0, 1⟩⟩, ⟨3, "%", ⟨1, 2⟩⟩, ⟨1, "+", ⟨2, 3⟩⟩, ⟨0, "2", ⟨3, 4⟩⟩]) ∧
    ([[⟨0, "3", ⟨0, 1⟩⟩, ⟨2, "!", ⟨1, 2⟩⟩], [⟨0, "2", ⟨3, 4⟩⟩], [⟨0, "3", ⟨0, 1⟩⟩, ⟨3, "%", ⟨1, 2⟩⟩],
        markTokens "3%+2"].map fun ts =>
      ((ParseState.start []).applyAll markGrammar ts >>= (·.finish markGrammar)).toOption.isSome) =
      [true, true, true, false] := by
  decide +kernel

theorem Grammar.accepts_iff_isSome {g : Grammar} {parameters : List Parameter} {ts : List Token} :
    g.Accepts parameters ts ↔
      ((ParseState.start parameters).applyAll g ts >>= (·.finish g)).toOption.isSome = true := by
  rw [Option.isSome_iff_exists]
  exact exists_congr fun _ => toOption_eq_some.symm

/-- The operator with a precedence may stand before another one. -/
theorem due_operators_fold_factorial :
    Language.make? markRules = .ok (Language.ofRules markRules markRules_fit) ∧
      Ordered 0 (markTokens "3!+2") 4 ∧
      (∀ t ∈ markTokens "3!+2", (markGrammar.kind t.rule).Willing) ∧
      markGrammar.Accepts [] (markTokens "3!+2") := by
  obtain ⟨⟨htokens, -⟩, hparses⟩ := mark_parses
  simp only [List.map_cons, List.map_nil, List.cons.injEq, and_true,
    ← Grammar.accepts_iff_isSome] at hparses
  have made := make?_eq_ofRules markRules_fit
  rw [htokens]
  have ordered : Ordered 0 ([⟨0, "3", ⟨0, 1⟩⟩] ++ ⟨2, "!", ⟨1, 2⟩⟩ :: ⟨1, "+", ⟨2, 3⟩⟩ ::
      [⟨0, "2", ⟨3, 4⟩⟩]) 4 := by decide
  have willing := @markGrammar_willing ([⟨0, "3", ⟨0, 1⟩⟩] ++ ⟨2, "!", ⟨1, 2⟩⟩ :: ⟨1, "+", ⟨2, 3⟩⟩ ::
      [⟨0, "2", ⟨3, 4⟩⟩]) (by decide)
  have hfactorial := markGrammar_kind ⟨2, "!", ⟨1, 2⟩⟩ rfl
  have hadd := markGrammar_kind ⟨1, "+", ⟨2, 3⟩⟩ rfl
  have haccepts := ((due_operators_fold made).2 ordered willing ⟨_, _, hfactorial⟩ ⟨_, _, hadd⟩
    (by rw [show (Language.ofRules markRules markRules_fit).grammar.kind _ = _ from hadd]; rfl)
    hparses.1 hparses.2.1).1.2
      (by rw [show (Language.ofRules markRules markRules_fit).grammar.kind _ = _ from hfactorial]; rfl)
  exact ⟨made, ordered, willing, haccepts⟩

/-- The operator without one may not, though what is in front of the other one is accepted, as is what
is behind it. -/
theorem not_accepts_mark :
    markTokens "3%+2" = [⟨0, "3", ⟨0, 1⟩⟩] ++ ⟨3, "%", ⟨1, 2⟩⟩ :: ⟨1, "+", ⟨2, 3⟩⟩ :: [⟨0, "2", ⟨3, 4⟩⟩] ∧
      markGrammar.IsOperator [.left] ⟨3, "%", ⟨1, 2⟩⟩ ∧
      markGrammar.IsOperator [.left, .right] ⟨1, "+", ⟨2, 3⟩⟩ ∧
      (markGrammar.kind 1).precedence? = some 2 ∧
      markGrammar.Accepts [] ([⟨0, "3", ⟨0, 1⟩⟩] ++ [⟨3, "%", ⟨1, 2⟩⟩]) ∧
      markGrammar.Accepts [] [⟨0, "2", ⟨3, 4⟩⟩] ∧
      ¬ markGrammar.Accepts [] (markTokens "3%+2") := by
  obtain ⟨⟨-, htokens⟩, hparses⟩ := mark_parses
  simp only [List.map_cons, List.map_nil, List.cons.injEq, and_true] at hparses
  have hmark := markGrammar_kind ⟨3, "%", ⟨1, 2⟩⟩ rfl
  have hadd := markGrammar_kind ⟨1, "+", ⟨2, 3⟩⟩ rfl
  refine ⟨htokens, ⟨_, _, hmark⟩, ⟨_, _, hadd⟩, by rw [show markGrammar.kind 1 = _ from hadd]; rfl,
    Grammar.accepts_iff_isSome.2 hparses.2.2.1, Grammar.accepts_iff_isSome.2 hparses.2.1, ?_⟩
  rw [Grammar.accepts_iff_isSome, hparses.2.2.2]
  exact Bool.false_ne_true

end Parlance
