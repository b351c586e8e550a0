import Parlance.Language.Filter
import Parlance.Proofs.Overlap
import Parlance.Proofs.Reductions

/-!
# Operands on their sides

An operator takes its operands from the sides that its positions name (`operands_sided`). To its right
that is tested; to its left only the start of an operand is, and its end follows from the order of the
stack: an operand that starts in front of an operator that waits ends there as well, unless a collection
bracket behind the operator has taken its source from in front of it (`Derived.ReachesOver`). The test
for the source of a bracket does not look at what waits, as that for the operands of an operator does.
-/

namespace Parlance

/-- A predicate over a collection whose bracket stands behind an extent, though it starts in front. -/
def Derived.ReachesOver (x : Derived) (e : Extent) : Prop :=
  x.extent.start < e.start ∧ ∃ source opening accessor body close,
    x.derivation = .collection source opening accessor body close ∧ e.stop ≤ opening.extent.start

namespace Trace

variable {g : Grammar} {operators operators' below : List Pending}
  {operands results xs ys rest : List Derived} {top a : Pending} {x : Derived} {stop stop' mid : Nat}
  {t : Token} {s s' : Trace}

/-- What each token keeps, up to where it ends, holds after tokens that follow one another. -/
theorem ordered_induction {P : Nat → Trace → Prop} {parameters : List Parameter}
    (start : ∀ stop, P stop (Trace.start parameters))
    (step : ∀ {mid stop : Nat} {s s' : Trace} {t : Token}, P mid s → Ordered mid [t] stop →
      Applied g s t s' → P stop s')
    {ts : List Token} (ordered : Ordered 0 ts stop)
    (run : (Trace.start parameters).applyAll g ts = some s) : P stop s := by
  have hstep (read : List Token) (s : Trace) (t : Token) (s' : Trace)
      (hs : ∀ stop, Ordered 0 read stop → P stop s) (ha : Applied g s t s') :
      ∀ stop, Ordered 0 (read ++ [t]) stop → P stop s' := by
    intro stop hordered
    obtain ⟨mid, hread, ht⟩ := Ordered.append_iff.1 hordered
    exact step (hs mid hread) ht ha
  exact applyAll_induction (P := fun read s => ∀ stop, Ordered 0 read stop → P stop s) hstep []
    (fun stop _ => start stop) run stop ordered

/-! ## What a bracket holds -/

/-- What has been taken out while a bracket is unwound stands behind all that still waits, and ends
before the close bracket. -/
structure Emptying (close previous : Extent) (contents : List Derived) (delimiters : List Token)
    (operators : List Pending) (stop : Nat) : Prop where
  queued : Queued operators stop
  previous_le : previous.start ≤ close.start
  contents : ∀ x ∈ contents,
    (∀ a ∈ operators, a.extent.stop ≤ x.extent.start) ∧ x.extent.stop ≤ close.start
  delimiters : ∀ d ∈ delimiters, (∀ a ∈ operators, a.extent.stop ≤ d.extent.start) ∧
    d.extent.start < d.extent.stop ∧ d.extent.stop ≤ close.start

namespace Emptying

variable {close previous : Extent} {contents : List Derived} {delimiters : List Token}

theorem drop (h : Emptying close previous contents delimiters (top :: below) stop) :
    Emptying close previous contents delimiters below stop where
  queued := h.queued.2.2.mono h.queued.start_le
  previous_le := h.previous_le
  contents := fun x hx =>
    ⟨fun a ha => (h.contents x hx).1 a (List.mem_cons_of_mem top ha), (h.contents x hx).2⟩
  delimiters := fun d hd =>
    ⟨fun a ha => (h.delimiters d hd).1 a (List.mem_cons_of_mem top ha), (h.delimiters d hd).2⟩

theorem take (h : Emptying close previous contents delimiters (top :: below) stop)
    (hafter : top.extent.stop ≤ x.extent.start) (hbefore : x.extent.stop ≤ previous.start) :
    Emptying close previous (x :: contents) delimiters (top :: below) stop where
  queued := h.queued
  previous_le := h.previous_le
  contents := List.forall_mem_cons.2
    ⟨⟨h.queued.stop_le hafter, hbefore.trans h.previous_le⟩, h.contents⟩
  delimiters := h.delimiters

theorem separate (h : Emptying close previous contents delimiters (top :: below) stop)
    (hclose : stop ≤ close.start) :
    Emptying close top.extent contents (top.token :: delimiters) below stop where
  queued := h.drop.queued
  previous_le := h.queued.start_le.trans hclose
  contents := h.drop.contents
  delimiters := List.forall_mem_cons.2
    ⟨⟨fun _ ha => (h.queued.2.2.mem ha).2, h.queued.2.1, h.queued.1.trans hclose⟩, h.drop.delimiters⟩

end Emptying

/-- The operands and delimiters that a close bracket takes out lie between its opening and it. -/
structure Enclosed (u : Unwound) (close : Extent) (stop : Nat) : Prop where
  queued : Queued (u.top :: u.operators) stop
  contents : ∀ x ∈ u.contents, u.top.extent.stop ≤ x.extent.start ∧ x.extent.stop ≤ close.start
  delimiters : ∀ d ∈ u.delimiters, u.top.extent.stop ≤ d.extent.start ∧
    d.extent.start < d.extent.stop ∧ d.extent.stop ≤ close.start

theorem enclosed_of_unwind {links : BracketLinks} {close : Extent} {u : Unwound}
    (h : Queued operators stop) (hclose : stop ≤ close.start)
    (hu : unwind g links close [] [] operators operands = some u) : Enclosed u close stop := by
  have hfirst : Emptying close close [] [] operators stop :=
    ⟨h, le_rfl, List.forall_mem_nil _, List.forall_mem_nil _⟩
  obtain ⟨-, previous, contents, _, h, hlast⟩ :=
    @unwind_induction g links (fun previous contents delimiters waiting _ =>
        Emptying close previous contents delimiters waiting stop)
      (fun h _ => h.drop) (fun _ hafter hbefore h => (h.take hafter hbefore).separate hclose)
      _ _ _ _ _ _ hfirst hu
  have h : Emptying close previous u.contents u.delimiters (u.top :: u.operators) stop := by
    rcases hlast with ⟨x, -, hlast, hafter, hbefore⟩ | ⟨-, -, hlast⟩
    · rw [hlast]
      exact h.take hafter hbefore
    · rwa [hlast]
  exact ⟨h.queued, fun x hx => ⟨(h.contents x hx).1 u.top List.mem_cons_self, (h.contents x hx).2⟩,
    fun d hd => ⟨(h.delimiters d hd).1 u.top List.mem_cons_self, (h.delimiters d hd).2⟩⟩

/-! ## Operands and what waits -/

/-- What waits is in its order up to an offset, and below the operands behind one that waits no operand
ends behind its start that does not reach over it. -/
structure Sided (operators : List Pending) (operands : List Derived) (stop : Nat) : Prop where
  queued : Queued operators stop
  within : ∀ x ∈ operands, x.extent.start < x.extent.stop ∧ x.extent.stop ≤ stop
  before : ∀ a ∈ operators, ∀ x ∈ operands.dropWhile (a.extent.stop ≤ ·.extent.start),
    x.extent.stop ≤ a.extent.start ∨ x.ReachesOver a.extent

namespace Sided

theorem mono (h : Sided operators operands stop) (hle : stop ≤ stop') :
    Sided operators operands stop' where
  queued := h.queued.mono hle
  within := fun x hx => ⟨(h.within x hx).1, (h.within x hx).2.trans hle⟩
  before := h.before

theorem drop (h : Sided (top :: below) operands stop) : Sided below operands stop where
  queued := h.queued.2.2.mono h.queued.start_le
  within := h.within
  before := fun a ha => h.before a (List.mem_cons_of_mem top ha)

/-- Operands behind everything that waits may take the place of others. -/
theorem replace (ys : List Derived) (h : Sided operators (xs ++ rest) stop)
    (hxs : ∀ x ∈ xs, ∀ a ∈ operators, a.extent.stop ≤ x.extent.start)
    (hys : ∀ y ∈ ys, ∀ a ∈ operators, a.extent.stop ≤ y.extent.start)
    (hwithin : ∀ y ∈ ys, y.extent.start < y.extent.stop ∧ y.extent.stop ≤ stop) :
    Sided operators (ys ++ rest) stop where
  queued := h.queued
  within := by
    intro y hy
    rcases List.mem_append.1 hy with hy | hy
    · exact hwithin y hy
    · exact h.within y (List.mem_append_right _ hy)
  before := by
    intro a ha
    have hbefore := h.before a ha
    rw [List.dropWhile_append_of_pos (by simpa using fun x hx => hxs x hx a ha)] at hbefore
    rwa [List.dropWhile_append_of_pos (by simpa using fun y hy => hys y hy a ha)]

theorem push (h : Sided operators operands stop)
    (hx : ∀ a ∈ operators, a.extent.stop ≤ x.extent.start)
    (hwithin : x.extent.start < x.extent.stop ∧ x.extent.stop ≤ stop) :
    Sided operators (x :: operands) stop := by
  have h : Sided operators ([] ++ operands) stop := h
  exact h.replace [x] (List.forall_mem_nil _) (by simpa using hx) (by simpa using hwithin)

theorem pop (h : Sided operators (x :: rest) stop)
    (hx : ∀ a ∈ operators, a.extent.stop ≤ x.extent.start) : Sided operators rest stop := by
  have h : Sided operators ([x] ++ rest) stop := h
  exact h.replace [] (by simpa using hx) (List.forall_mem_nil _) (List.forall_mem_nil _)

theorem await (h : Sided operators operands stop) (ht : Ordered stop [t] stop') :
    Sided (⟨⟨t, none⟩, none⟩ :: operators) operands stop' where
  queued := ⟨ht.2.2, ht.2.1, h.queued.mono ht.1⟩
  within := (h.mono (ht.1.trans (ht.2.1.le.trans ht.2.2))).within
  before := List.forall_mem_cons.2 ⟨fun x hx => .inl
    ((h.within x ((List.dropWhile_sublist _).mem hx)).2.trans ht.1), h.before⟩

/-! ## Operators -/

/-- What an operator takes from its left is not behind it, and so ends in front of it or reaches over
it. -/
theorem left_of_split {positions : List Side} {boundary : Nat} {left right : List Derived}
    (h : Sided (top :: below) operands stop)
    (hs : Split Derived.extent top.extent positions boundary operands left right rest) :
    ∀ x ∈ left, boundary ≤ x.extent.start ∧
      (x.extent.stop ≤ top.extent.start ∨ x.ReachesOver top.extent) := by
  have hdrop : operands.dropWhile (top.extent.stop ≤ ·.extent.start) = left.reverse ++ rest := by
    rw [hs.stack_eq, List.dropWhile_append_of_pos fun x hx => by
      simpa using hs.after x (List.mem_reverse.1 hx)]
    cases hstack : left.reverse ++ rest with
    | nil => rfl
    | cons x others =>
      have hx := hs.before x (by rw [hstack]; rfl)
      exact List.dropWhile_cons_of_neg (by simpa using hx)
  have hbefore := h.before top List.mem_cons_self
  rw [hdrop] at hbefore
  exact fun x hx =>
    ⟨hs.inside x hx, hbefore x (List.mem_append_left _ (List.mem_reverse.2 hx))⟩

/-- The result of an operator stands behind all that waits below, as its operands do. -/
theorem reduce (h : Sided (top :: below) operands stop) (hr : Reduced g top below operands results) :
    Sided below results stop := by
  cases hr with
  | inert => exact h.drop
  | @operation positions precedence build left right rest expr hk hs hb =>
    have hmem : ∀ y, y ∈ left ∨ y ∈ right → y ∈ operands := by
      intro y hy
      rw [hs.stack_eq]
      simp only [List.mem_append, List.mem_reverse]
      tauto
    have hbehind : ∀ y, y ∈ left ∨ y ∈ right → ∀ a ∈ below, a.extent.stop ≤ y.extent.start := by
      rintro y (hy | hy) a ha
      · exact (h.queued.2.2.stop_le_boundary ha).trans (hs.inside y hy)
      · exact (h.queued.2.2.mem ha).2.trans (h.queued.2.1.le.trans (hs.after y hy))
    have hargs := @Spread.exists_of_mem_arrange positions left right
    have hcovers := coverAll_covers top.extent ((Operand.arrange positions
      (left.map Derived.operand) (right.map Derived.operand)).map Operand.extent)
    have hstop := (@coverAll_within 0 stop _ _ ⟨Nat.zero_le _, h.queued.1⟩ fun e he => by
      obtain ⟨y, hy, rfl⟩ := hargs he
      exact ⟨Nat.zero_le _, (h.within y (hmem y hy)).2⟩).2
    have hdrop := h.drop
    rw [hs.stack_eq, ← List.append_assoc] at hdrop
    refine hdrop.replace [_] (fun y hy => ?_) (List.forall_mem_singleton.2 fun a ha => ?_)
      (List.forall_mem_singleton.2 ⟨(hcovers.1.trans_lt h.queued.2.1).trans_le hcovers.2, hstop⟩)
    · simp only [List.mem_append, List.mem_reverse] at hy
      exact hbehind y hy.symm
    · refine le_start_coverAll (h.queued.2.2.mem ha).2 fun e he => ?_
      obtain ⟨y, hy, rfl⟩ := hargs he
      exact hbehind y hy a ha

theorem foldWhile {folds : RuleKind → Bool} (h : Sided operators operands stop)
    (hf : Trace.foldWhile g folds operators operands = some (operators', results)) :
    Sided operators' results stop :=
  @foldWhile_induction g folds (fun operators operands => Sided operators operands stop)
    (fun h hr => h.reduce hr) _ _ _ _ h hf

theorem named (h : Sided s.operators s.operands stop) (hn : Named g s t s') :
    Sided s'.operators s'.operands stop := by
  cases hn with
  | intro operators =>
    rw [operators] at h
    exact ⟨⟨h.queued.1, h.queued.2⟩, h.within,
      List.forall_mem_cons.2 (List.forall_mem_cons.1 h.before)⟩

/-! ## Brackets -/

theorem unwind {links : BracketLinks} {previous : Extent} {u : Unwound}
    (h : Sided operators operands stop)
    (hu : Trace.unwind g links previous [] [] operators operands = some u) :
    Sided (u.top :: u.operators) u.operands stop := by
  obtain ⟨-, previous, contents, operands', h, hlast⟩ :=
    @unwind_induction g _ (fun _ _ _ waiting operands => Sided waiting operands stop)
      (fun h hr => h.reduce hr) (fun _ hafter _ h => (h.pop (h.queued.stop_le hafter)).drop)
      _ _ _ _ _ _ h hu
  rcases hlast with ⟨x, rfl, -, hafter, -⟩ | ⟨-, rfl, -⟩
  · exact h.pop (h.queued.stop_le hafter)
  · exact h

/-- The source of a collection bracket stands behind what waits, in front of it, or reaches over it. -/
theorem source (h : Sided operators (x :: rest) stop) :
    ∀ a ∈ operators, a.extent.stop ≤ x.extent.start ∨ x.extent.stop ≤ a.extent.start ∨
      x.ReachesOver a.extent := by
  intro a ha
  by_cases hx : a.extent.stop ≤ x.extent.start
  · exact .inl hx
  · refine .inr (h.before a ha x ?_)
    rw [List.dropWhile_cons_of_neg (by simpa using hx)]
    exact List.mem_cons_self

/-- A source grows into a predicate, which reaches over all that stands between it and the bracket. -/
theorem extend {y : Derived} (h : Sided operators (x :: rest) stop) (hle : stop ≤ stop')
    (hstart : y.extent.start = x.extent.start)
    (hwithin : y.extent.start < y.extent.stop ∧ y.extent.stop ≤ stop')
    (hover : ∀ a ∈ operators, y.extent.start < a.extent.start → y.ReachesOver a.extent) :
    Sided operators (y :: rest) stop' where
  queued := h.queued.mono hle
  within := List.forall_mem_cons.2 ⟨hwithin, (List.forall_mem_cons.1 (h.mono hle).within).2⟩
  before := by
    intro a ha
    have hbefore := h.before a ha
    by_cases hx : a.extent.stop ≤ x.extent.start
    · rw [List.dropWhile_cons_of_pos (by simpa using hx)] at hbefore
      rwa [List.dropWhile_cons_of_pos (by simpa [hstart] using hx)]
    · rw [List.dropWhile_cons_of_neg (by simpa using hx)] at hbefore
      rw [List.dropWhile_cons_of_neg (by simpa [hstart] using hx)]
      obtain ⟨hfirst, hrest⟩ := List.forall_mem_cons.1 hbefore
      refine List.forall_mem_cons.2 ⟨.inr (hover a ha ?_), hrest⟩
      have hwidth := (h.within x List.mem_cons_self).1
      rcases hfirst with hfirst | hfirst
      · omega
      · exact hstart ▸ hfirst.1

theorem closed (h : Sided s.operators s.operands mid) (ht : Ordered mid [t] stop)
    (hc : Closed g s t s') : Sided s'.operators s'.operands stop := by
  have hle := ht.1.trans (ht.2.1.le.trans ht.2.2)
  -- A bracket that is no collection bracket extends from its opening to its close.
  have hbracket {u : Unwound} {result : Derived}
      (hu : Sided (u.top :: u.operators) u.operands mid)
      (hextent : result.extent = ⟨u.top.extent.start, t.extent.stop⟩) :
      Sided u.operators (result :: u.operands) stop := by
    refine (hu.drop.mono hle).push (fun a ha => ?_) ?_
    · rw [hextent]
      exact (hu.queued.2.2.mem ha).2
    · rw [hextent]
      exact ⟨(hu.queued.start_le.trans ht.1).trans_lt ht.2.1, ht.2.2⟩
  cases hc with
  | @call u overloads result unwound kind called =>
    have hu := h.unwind unwound
    have htop := hu.queued
    have hopen := htop.1.trans ht.1
    refine hbracket hu (called_extent (called_of_callFunction called) htop.2.1.le
      (htop.2.1.le.trans hopen) (hopen.trans ht.2.1.le) ht.2.1.le fun x hx => ?_)
    obtain ⟨y, hy, rfl⟩ := List.mem_map.1 hx
    obtain ⟨hstart, hstop⟩ := (enclosed_of_unwind h.queued ht.1 unwound).contents y hy
    exact ⟨htop.2.1.le.trans hstart, hstop.trans ht.2.1.le⟩
  | @collection u build source rest element expr unwound kind single operands before element_eq built =>
    have hu := h.unwind unwound
    rw [operands] at hu
    have htop := hu.queued
    have hsource := hu.within source List.mem_cons_self
    have hwidth := ht.2.1
    have hstart := hsource.1.le.trans (hsource.2.trans ht.1)
    have hextent : (source.extent.cover u.top.extent).cover t.extent =
        ⟨source.extent.start, t.extent.stop⟩ :=
      cover_cover_eq (hsource.1.le.trans before) hstart (hsource.2.trans (ht.1.trans hwidth.le))
        ((htop.1.trans ht.1).trans hwidth.le)
    refine hu.drop.extend hle ?_ ?_ fun a ha hover => ⟨hover, _, _, _, _, _, rfl, ?_⟩
    · rw [show Derived.extent _ = _ from hextent]
    · rw [show Derived.extent _ = _ from hextent]
      exact ⟨hstart.trans_lt hwidth, ht.2.2⟩
    · exact (htop.2.2.mem ha).2
  | @bracket u inner unwound kind single =>
    have hu := h.unwind unwound
    have htop := hu.queued
    have hopen := htop.1.trans ht.1
    obtain ⟨hstart, hstop⟩ :=
      (enclosed_of_unwind h.queued ht.1 unwound).contents inner (by simp [single])
    exact hbracket hu (cover_cover_eq (htop.2.1.le.trans hstart) (htop.2.1.le.trans hopen)
      (hopen.trans ht.2.1.le) (hstop.trans ht.2.1.le))

/-! ## Runs -/

theorem apply (h : Sided s.operators s.operands mid) (ht : Ordered mid [t] stop)
    (ha : Applied g s t s') : Sided s'.operators s'.operands stop := by
  have hle := ht.1.trans (ht.2.1.le.trans ht.2.2)
  cases ha with
  | skip => exact h.mono hle
  | operand =>
    exact (h.mono hle).push (fun a ha => (h.queued.mem ha).2.trans ht.1) ⟨ht.2.1, ht.2.2⟩
  | waits _ folded => exact (h.foldWhile (fold_eq_some.1 folded).2).await ht
  | named _ named => exact (h.named named).mono hle
  | closed _ closed => exact h.closed ht closed

theorem applyAll {parameters : List Parameter} {ts : List Token} (ordered : Ordered 0 ts stop)
    (run : (Trace.start parameters).applyAll g ts = some s) : Sided s.operators s.operands stop :=
  ordered_induction (P := fun stop s => Sided s.operators s.operands stop)
    (fun _ => ⟨trivial, by simp [Trace.start], by simp [Trace.start]⟩)
    (fun h ht ha => h.apply ht ha) ordered run

end Sided

end Trace

/-- An operator takes its operands to the right from behind it, and those to the left from behind all
that waits below it; these end in front of it, unless one is a predicate that reaches over it. The source
of a collection bracket ends in front of the bracket, and of what waits below the bracket each stands in
front of the source or behind it, unless the source is a predicate that reaches over it. -/
theorem operands_sided {g : Grammar} {parameters : List Parameter} {ts : List Token} {stop : Nat}
    {s : ParseState} (ordered : Ordered 0 ts stop)
    (run : (ParseState.start parameters).applyAll g ts = .ok s) :
    ∃ r : Trace, (Trace.start parameters).applyAll g ts = some r ∧ r.state = s ∧
      (∀ ρ positions precedence build args rest,
        ((∃ t, ρ ∈ r.reductions g t) ∨ ρ ∈ r.lastReductions g) →
        g.kind ρ.top.rule = .operator positions precedence build →
        ρ.taken positions = .ok (args, rest) →
        (∀ x ∈ atSide .right positions args, ρ.top.extent.stop ≤ x.extent.start) ∧
        ∃ left : List Derived, atSide .left positions args = left.map Derived.operand ∧
          ∀ x ∈ left, (∀ a ∈ ρ.below, a.extent.stop ≤ x.extent.start) ∧
            (x.extent.stop ≤ ρ.top.extent.start ∨ x.ReachesOver ρ.top.extent)) ∧
      ∀ (t : Token) (u : Trace.Unwound) source rest,
        Trace.unwind g (g.linksOf t.rule) t.extent [] [] r.operators r.operands = some u →
        takeSource u.top.extent (u.operands.map Derived.operand) = .ok (source, rest) →
        source.extent.stop ≤ u.top.extent.start ∧
        ∃ x : Derived, x.operand = source ∧ ∀ a ∈ u.operators, a.extent.stop ≤ u.top.extent.start ∧
          (a.extent.stop ≤ x.extent.start ∨ x.extent.stop ≤ a.extent.start ∨
            x.ReachesOver a.extent) := by
  obtain ⟨r, hr, rfl⟩ := Trace.exists_of_applyAll run
  have hsided := Trace.Sided.applyAll ordered hr
  refine ⟨r, hr, rfl, ?_, ?_⟩
  · intro ρ positions precedence build args rest hρ hkind htaken
    have hρ := Trace.reductions_induction (g := g)
      (P := fun operators operands => Trace.Sided operators operands stop) (fun h hr => h.reduce hr)
      (fun hafter h => (h.pop (h.queued.stop_le hafter)).drop) hsided hρ
    obtain ⟨left, right, hsplit, rfl⟩ := takeOperands_eq_ok.1 htaken
    obtain ⟨-, hleft, hright⟩ := arrange_spec hsplit.length_left hsplit.length_right
    rw [hleft, hright]
    refine ⟨hsplit.after, ?_⟩
    obtain ⟨left, right, rest, rfl, rfl, rfl, hs⟩ := hsplit.of_map
    refine ⟨left, rfl, fun x hx => ?_⟩
    obtain ⟨hboundary, hbefore⟩ := hρ.left_of_split hs x hx
    exact ⟨fun a ha => (hρ.queued.2.2.stop_le_boundary ha).trans hboundary, hbefore⟩
  · intro t u source rest hu hsource
    obtain ⟨hoperands, hbefore⟩ := takeSource_eq_ok.1 hsource
    obtain ⟨x, others, hx, rfl, rfl⟩ := List.map_eq_cons_iff.1 hoperands
    have hu := hsided.unwind hu
    rw [hx] at hu
    exact ⟨hbefore, x, rfl, fun a ha => ⟨(hu.queued.2.2.mem ha).2, hu.drop.source a ha⟩⟩

/-- The type of rows with tags. -/
def taggedType : RecordType := ⟨"Row", [("Tags", .collection .string)]⟩

/-- The rows with a tag. -/
def taggedFilter : String := "Tags/any() and true"

/-- The same tokens in another order: the bracket is behind the operator, its source in front. -/
def crossedFilter : String := "Tags and /any() true"

/-- The tokens of the former filter. -/
def taggedTokens : List Token := (Filter.language.scanner.scan taggedFilter).tokens

/-- The tokens of the latter filter. -/
def crossedTokens : List Token := (Filter.language.scanner.scan crossedFilter).tokens

set_option maxRecDepth 100000 in
/-- Both filters are parsed. In the former the operator finds its operands at the end; in the latter the
bracket finds its source on the other side of the operator. -/
theorem taggedFilters_run :
    ((((Trace.start [⟨none, taggedType.type⟩]).applyAll Filter.language.grammar taggedTokens).any
        fun s => (s.lastReductions Filter.language.grammar).any fun ρ =>
          (Filter.language.grammar.kind ρ.top.rule).positions == [.left, .right] &&
            (ρ.taken [.left, .right]).toOption.isSome) &&
      (Filter.parse crossedFilter taggedType).toOption.isSome &&
      ((Trace.start [⟨none, taggedType.type⟩]).applyAll Filter.language.grammar
        (crossedTokens.take 3)).any fun s => crossedTokens[3]?.any fun close =>
          (Trace.unwind Filter.language.grammar (Filter.language.grammar.linksOf close.rule) close.extent
            [] [] s.operators s.operands).any fun u =>
              (takeSource u.top.extent (u.operands.map Derived.operand)).toOption.any fun (source, _) =>
                u.operators.any fun a => source.extent.stop ≤ a.extent.start &&
                  a.extent.stop ≤ u.top.extent.start) = true ∧
    Ordered 0 taggedTokens 19 := by
  decide +kernel

/-- The connective in the former filter finds its operands on their sides. -/
theorem operands_sided_tagged :
    ∃ (r : Trace) (ρ : Reduction) (args rest : List Operand),
      (Trace.start [⟨none, taggedType.type⟩]).applyAll Filter.language.grammar taggedTokens = some r ∧
      ρ ∈ r.lastReductions Filter.language.grammar ∧ ρ.taken [.left, .right] = .ok (args, rest) ∧
      (∀ x ∈ atSide .right [.left, .right] args, ρ.top.extent.stop ≤ x.extent.start) ∧
      ∃ left : List Derived, atSide .left [.left, .right] args = left.map Derived.operand ∧
        ∀ x ∈ left, (∀ a ∈ ρ.below, a.extent.stop ≤ x.extent.start) ∧
          (x.extent.stop ≤ ρ.top.extent.start ∨ x.ReachesOver ρ.top.extent) := by
  obtain ⟨hruns, ordered⟩ := taggedFilters_run
  simp only [Bool.and_eq_true, Option.any_eq_true, List.any_eq_true, beq_iff_eq] at hruns
  obtain ⟨⟨⟨r, hr, ρ, hρ, hpositions, htaken⟩, -⟩, -⟩ := hruns
  obtain ⟨⟨args, rest⟩, htaken⟩ := Option.isSome_iff_exists.1 htaken
  have htaken := toOption_eq_some.1 htaken
  obtain ⟨precedence, build, hkind⟩ : ∃ precedence build,
      Filter.language.grammar.kind ρ.top.rule = .operator [.left, .right] precedence build := by
    cases hk : Filter.language.grammar.kind ρ.top.rule <;> rw [hk] at hpositions <;> cases hpositions
    exact ⟨_, _, rfl⟩
  have hrun := (Trace.state_applyAll Filter.language.grammar _ taggedTokens).symm.trans
    (congrArg (Option.map Trace.state) hr)
  obtain ⟨r', hr', -, hoperators, -⟩ := operands_sided ordered (toOption_eq_some.1 hrun)
  cases hr.symm.trans hr'
  exact ⟨r, ρ, args, rest, hr, hρ, htaken,
    hoperators ρ _ precedence build args rest (.inr hρ) hkind htaken⟩

/-- The bracket in the latter filter takes the source in front of the connective, so that the connective
waits between the bracket and its source; the filter is accepted. -/
theorem not_sided_crossed :
    ∃ (f : Lambda) (s : Trace) (close : Token) (u : Trace.Unwound) (source : Operand)
      (rest : List Operand) (a : Pending), Filter.parse crossedFilter taggedType = .ok f ∧
      (Trace.start [⟨none, taggedType.type⟩]).applyAll Filter.language.grammar (crossedTokens.take 3) =
        some s ∧ crossedTokens[3]? = some close ∧
      Trace.unwind Filter.language.grammar (Filter.language.grammar.linksOf close.rule) close.extent
        [] [] s.operators s.operands = some u ∧
      takeSource u.top.extent (u.operands.map Derived.operand) = .ok (source, rest) ∧
      a ∈ u.operators ∧ source.extent.stop ≤ a.extent.start ∧ a.extent.stop ≤ u.top.extent.start := by
  have hruns := taggedFilters_run.1
  simp only [Bool.and_eq_true, Option.any_eq_true, List.any_eq_true, decide_eq_true_eq] at hruns
  obtain ⟨⟨-, hparse⟩, s, hs, close, hclose, u, hu, ⟨source, rest⟩, hsource, a, ha, hbefore, hafter⟩ :=
    hruns
  obtain ⟨f, hf⟩ := Option.isSome_iff_exists.1 hparse
  exact ⟨f, s, close, u, source, rest, a, toOption_eq_some.1 hf, hs, hclose, hu,
    toOption_eq_some.1 hsource, ha, hbefore, hafter⟩

end Parlance
