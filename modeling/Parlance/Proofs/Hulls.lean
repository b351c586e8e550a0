import Parlance.Proofs.Sides

/-!
# The extents of operands

The extent of an operand is the least one that covers the tokens that the operand was built from
(`extents_exact`), however it was built: by an operator from the extents of its operands, by a bracket
from its two ends. An operator whose builder refuses is reported at the least extent that covers it and
its operands.
-/

namespace Parlance

/-! ## Least extents -/

namespace Extent

/-- No part of an extent is outside of another one. -/
def Includes (e a : Extent) : Prop := e.start ≤ a.start ∧ a.stop ≤ e.stop

/-- The least extent that includes all of some extents. -/
structure Hull (e : Extent) (parts : Set Extent) : Prop where
  includes : ∀ a ∈ parts, e.Includes a
  least : ∀ b : Extent, (∀ a ∈ parts, b.Includes a) → b.Includes e

variable {e a b first opening close : Extent} {rest : List Extent} {parts : Set Extent}

theorem Includes.trans (h : e.Includes a) (h' : a.Includes b) : e.Includes b :=
  ⟨h.1.trans h'.1, h'.2.trans h.2⟩

theorem includes_coverAll (h : a ∈ rest) : (first.coverAll rest).Includes a := by
  induction rest generalizing first with
  | nil => cases h
  | cons x rest ih =>
    rcases List.mem_cons.1 h with rfl | h
    · have hcovers := coverAll_covers (first.cover a) rest
      have hcover : (first.cover a).Includes a := ⟨min_le_right _ _, le_max_right _ _⟩
      exact Includes.trans hcovers hcover
    · exact ih h

theorem hull_coverAll : (first.coverAll rest).Hull {a | a = first ∨ a ∈ rest} where
  includes := by
    rintro a (rfl | ha)
    · exact coverAll_covers a rest
    · exact includes_coverAll ha
  least := fun _ h => coverAll_within (h first (.inl rfl)) fun _ ha => h _ (.inr ha)

/-- What is between two parts is covered from the one to the other. -/
theorem hull_between (hopening : opening ∈ parts) (hclose : close ∈ parts)
    (h : ∀ a ∈ parts, opening.start ≤ a.start ∧ a.stop ≤ close.stop) :
    Hull ⟨opening.start, close.stop⟩ parts where
  includes := h
  least := fun _ hb => ⟨(hb _ hopening).1, (hb _ hclose).2⟩

end Extent

/-! ## The tokens of an operand -/

namespace Derivation

/-- A token has gone into an operand: for an operand or an operator, or as a bracket, a delimiter or an
accessor. -/
inductive Uses (t : Token) : Derivation → Prop
  | token : Uses t (.token t)
  | operator {left right : List Derivation} : Uses t (.operation t left right)
  | operand {op : Token} {left right : List Derivation} {d : Derivation} (mem : d ∈ left ∨ d ∈ right)
      (uses : Uses t d) : Uses t (.operation op left right)
  | bracketOpening {inner : Derivation} {close : Token} : Uses t (.bracket t inner close)
  | inner {opening close : Token} {d : Derivation} (uses : Uses t d) : Uses t (.bracket opening d close)
  | bracketClose {opening : Token} {inner : Derivation} : Uses t (.bracket opening inner t)
  | callOpening {args : List Derivation} {delimiters : List Token} {close : Token} :
      Uses t (.call t args delimiters close)
  | argument {opening close : Token} {args : List Derivation} {delimiters : List Token} {d : Derivation}
      (mem : d ∈ args) (uses : Uses t d) : Uses t (.call opening args delimiters close)
  | delimiter {opening close : Token} {args : List Derivation} {delimiters : List Token}
      (mem : t ∈ delimiters) : Uses t (.call opening args delimiters close)
  | callClose {opening : Token} {args : List Derivation} {delimiters : List Token} :
      Uses t (.call opening args delimiters t)
  | source {opening close : Token} {d : Derivation} {accessor : Option Token} {body : Option Derivation}
      (uses : Uses t d) : Uses t (.collection d opening accessor body close)
  | collectionOpening {close : Token} {source : Derivation} {accessor : Option Token}
      {body : Option Derivation} : Uses t (.collection source t accessor body close)
  | accessor {opening close : Token} {source : Derivation} {accessor : Option Token}
      {body : Option Derivation} (mem : t ∈ accessor) : Uses t (.collection source opening accessor body close)
  | body {opening close : Token} {source d : Derivation} {accessor : Option Token}
      {body : Option Derivation} (mem : d ∈ body) (uses : Uses t d) :
      Uses t (.collection source opening accessor body close)
  | collectionClose {opening : Token} {source : Derivation} {accessor : Option Token}
      {body : Option Derivation} : Uses t (.collection source opening accessor body t)

/-- The extents of the tokens of an operand. -/
def extents (d : Derivation) : Set Extent := {e | ∃ t, d.Uses t ∧ t.extent = e}

theorem Uses.mem_extents {d : Derivation} {t : Token} (h : d.Uses t) : t.extent ∈ d.extents :=
  ⟨t, h, rfl⟩

end Derivation

/-- The extent of an operand is the least one that covers its tokens. -/
def Derived.Exact (x : Derived) : Prop := x.extent.Hull x.derivation.extents

namespace Trace

variable {g : Grammar} {operators operators' below : List Pending}
  {operands results left right rest : List Derived} {top : Pending} {x source : Derived}
  {stop stop' mid : Nat} {t : Token} {s s' : Trace} {positions : List Side}

/-! ## Operators -/

theorem mem_of_mem_atSide {α : Type} {side : Side} {args : List α} {a : α}
    (h : a ∈ atSide side positions args) : a ∈ args := by
  obtain ⟨⟨_, _⟩, hp, rfl⟩ := List.mem_map.1 h
  exact (List.of_mem_zip (List.mem_of_mem_filter hp)).2

/-- All operands of an operator are among those that it is built from. -/
theorem mem_arrange_of_split {boundary : Nat}
    (hs : Split Derived.extent top.extent positions boundary operands left right rest)
    (hx : x ∈ left ∨ x ∈ right) :
    x.extent ∈ (Operand.arrange positions (left.map Derived.operand)
      (right.map Derived.operand)).map Operand.extent := by
  obtain ⟨-, hleft, hright⟩ := arrange_spec hs.map.length_left hs.map.length_right
  refine List.mem_map_of_mem ?_
  rcases hx with hx | hx
  · exact mem_of_mem_atSide (hleft ▸ List.mem_map_of_mem hx)
  · exact mem_of_mem_atSide (hright ▸ List.mem_map_of_mem hx)

theorem exact_operation {boundary : Nat} {expr : Expr}
    (hs : Split Derived.extent top.extent positions boundary operands left right rest)
    (h : ∀ x ∈ operands, x.Exact) :
    Derived.Exact ⟨⟨expr, top.extent.coverAll ((Operand.arrange positions (left.map Derived.operand)
        (right.map Derived.operand)).map Operand.extent)⟩,
      .operation top.token (left.map Derived.derivation) (right.map Derived.derivation)⟩ := by
  have hexact : ∀ x, x ∈ left ∨ x ∈ right → x.Exact := by
    intro x hx
    refine h x ?_
    rw [hs.stack_eq]
    simp only [List.mem_append, List.mem_reverse]
    tauto
  constructor
  · rintro _ ⟨t, huses, rfl⟩
    cases huses with
    | operator => exact coverAll_covers _ _
    | @operand _ _ _ d mem uses =>
      obtain ⟨x, hx, rfl⟩ : ∃ x, (x ∈ left ∨ x ∈ right) ∧ x.derivation = d := by
        rcases mem with mem | mem <;> obtain ⟨x, hx, rfl⟩ := List.mem_map.1 mem
        · exact ⟨x, .inl hx, rfl⟩
        · exact ⟨x, .inr hx, rfl⟩
      exact (Extent.includes_coverAll (mem_arrange_of_split hs hx)).trans
        ((hexact x hx).includes _ uses.mem_extents)
  · intro b hb
    refine coverAll_within (hb _ Derivation.Uses.operator.mem_extents) fun e he => ?_
    obtain ⟨x, hx, rfl⟩ := Spread.exists_of_mem_arrange he
    refine (hexact x hx).least b ?_
    rintro _ ⟨t, huses, rfl⟩
    refine hb _ (Derivation.Uses.operand (d := x.derivation) ?_ huses).mem_extents
    exact hx.imp List.mem_map_of_mem List.mem_map_of_mem

/-! ## Steps -/

/-- The operands are exact, and accessors stand behind their brackets. -/
structure Hulled (operators : List Pending) (operands : List Derived) (stop : Nat) : Prop where
  sided : Sided operators operands stop
  exact : ∀ x ∈ operands, x.Exact
  accessors : ∀ a ∈ operators, ∀ t ∈ a.accessor, a.extent.stop ≤ t.extent.start ∧ t.extent.stop ≤ stop

namespace Hulled

theorem mono (h : Hulled operators operands stop) (hle : stop ≤ stop') :
    Hulled operators operands stop' where
  sided := h.sided.mono hle
  exact := h.exact
  accessors := fun a ha t ht => (h.accessors a ha t ht).imp_right (·.trans hle)

theorem drop (h : Hulled (top :: below) operands stop) : Hulled below operands stop where
  sided := h.sided.drop
  exact := h.exact
  accessors := fun a ha => h.accessors a (List.mem_cons_of_mem top ha)

theorem pop (h : Hulled (top :: below) (x :: rest) stop) (hx : top.extent.stop ≤ x.extent.start) :
    Hulled (top :: below) rest stop where
  sided := h.sided.pop (h.sided.queued.stop_le hx)
  exact := (List.forall_mem_cons.1 h.exact).2
  accessors := h.accessors

theorem await (h : Hulled operators operands stop) (ht : Ordered stop [t] stop') :
    Hulled (⟨⟨t, none⟩, none⟩ :: operators) operands stop' where
  sided := h.sided.await ht
  exact := h.exact
  accessors := List.forall_mem_cons.2
    ⟨nofun, (h.mono (ht.1.trans (ht.2.1.le.trans ht.2.2))).accessors⟩

theorem reduce (h : Hulled (top :: below) operands stop) (hr : Reduced g top below operands results) :
    Hulled below results stop := by
  refine ⟨h.sided.reduce hr, ?_, h.drop.accessors⟩
  cases hr with
  | inert => exact h.exact
  | operation kind split built =>
    refine List.forall_mem_cons.2 ⟨exact_operation split h.exact, fun x hx => h.exact x ?_⟩
    rw [split.stack_eq]
    simp [hx]

theorem foldWhile {folds : RuleKind → Bool} (h : Hulled operators operands stop)
    (hf : Trace.foldWhile g folds operators operands = some (operators', results)) :
    Hulled operators' results stop :=
  @foldWhile_induction g folds (fun operators operands => Hulled operators operands stop)
    (fun h hr => h.reduce hr) _ _ _ _ h hf

theorem named (h : Hulled s.operators s.operands mid) (ht : Ordered mid [t] stop)
    (hn : Named g s t s') : Hulled s'.operators s'.operands stop := by
  have hle := ht.1.trans (ht.2.1.le.trans ht.2.2)
  have hsided := (h.sided.named hn).mono hle
  cases hn with
  | @intro top below source rest build element operators =>
    have haccessors := (h.mono hle).accessors
    rw [operators] at h haccessors
    refine ⟨hsided, h.exact,
      List.forall_mem_cons.2 ⟨?_, (List.forall_mem_cons.1 haccessors).2⟩⟩
    rintro _ ⟨⟩
    exact ⟨h.sided.queued.1.trans ht.1, ht.2.2⟩

/-! ## Brackets -/

theorem unwind {links : BracketLinks} {previous : Extent} {u : Unwound}
    (h : Hulled operators operands stop)
    (hu : Trace.unwind g links previous [] [] operators operands = some u) :
    Hulled (u.top :: u.operators) u.operands stop ∧ ∀ x ∈ u.contents, x.Exact := by
  have htake {contents : List Derived} {top : Pending} {below : List Pending} {x : Derived}
      {rest : List Derived} (h : Hulled (top :: below) (x :: rest) stop ∧ ∀ y ∈ contents, y.Exact)
      (hx : top.extent.stop ≤ x.extent.start) :
      Hulled (top :: below) rest stop ∧ ∀ y ∈ x :: contents, y.Exact :=
    ⟨h.1.pop hx, List.forall_mem_cons.2 ⟨h.1.exact x List.mem_cons_self, h.2⟩⟩
  obtain ⟨-, previous, contents, operands', h, hlast⟩ :=
    @unwind_induction g _ (fun _ contents _ waiting operands =>
        Hulled waiting operands stop ∧ ∀ x ∈ contents, x.Exact)
      (fun h hr => ⟨h.1.reduce hr, h.2⟩)
      (fun _ hafter _ h => ⟨(htake h hafter).1.drop, (htake h hafter).2⟩)
      _ _ _ _ _ _ ⟨h, List.forall_mem_nil _⟩ hu
  rcases hlast with ⟨x, rfl, hcontents, hafter, -⟩ | ⟨-, rfl, hcontents⟩
  · rw [hcontents]
    exact htake h hafter
  · rwa [hcontents]

/-- What a bracket makes of its contents extends from its opening to its close, and so do its tokens. -/
theorem exact_bracket {u : Unwound} {result : Derived} (henclosed : Enclosed u t.extent mid)
    (hexact : ∀ x ∈ u.contents, x.Exact) (ht : Ordered mid [t] stop)
    (hextent : result.extent = ⟨u.top.extent.start, t.extent.stop⟩)
    (hopening : result.derivation.Uses u.top.token) (hclose : result.derivation.Uses t)
    (huses : ∀ d, result.derivation.Uses d → d = u.top.token ∨ d = t ∨ d ∈ u.delimiters ∨
      ∃ x ∈ u.contents, x.derivation.Uses d) : result.Exact := by
  have hwidth := henclosed.queued.2.1
  have hle := henclosed.queued.1.trans ht.1
  have hclosed := ht.2.1
  rw [Derived.Exact, hextent]
  refine Extent.hull_between hopening.mem_extents hclose.mem_extents ?_
  rintro _ ⟨d, hd, rfl⟩
  rcases huses d hd with rfl | rfl | hd | ⟨x, hx, hd⟩
  · exact ⟨le_rfl, hle.trans hclosed.le⟩
  · exact ⟨hwidth.le.trans hle, le_rfl⟩
  · obtain ⟨hafter, hd, hbefore⟩ := henclosed.delimiters d hd
    exact ⟨hwidth.le.trans hafter, hbefore.trans hclosed.le⟩
  · obtain ⟨hafter, hbefore⟩ := henclosed.contents x hx
    obtain ⟨hstart, hstop⟩ := (hexact x hx).includes _ hd.mem_extents
    exact ⟨hwidth.le.trans (hafter.trans hstart), hstop.trans (hbefore.trans hclosed.le)⟩

/-- A predicate over a collection extends from its source to its close, and so do its tokens. -/
theorem exact_collection {u : Unwound} {expr : Expr}
    (h : Hulled (u.top :: u.operators) (source :: rest) mid) (henclosed : Enclosed u t.extent mid)
    (hexact : ∀ x ∈ u.contents, x.Exact) (ht : Ordered mid [t] stop)
    (hbefore : source.extent.stop ≤ u.top.extent.start) :
    Derived.Exact ⟨⟨expr, (source.extent.cover u.top.extent).cover t.extent⟩,
      .collection source.derivation u.top.token u.top.accessor
        (u.contents.head?.map Derived.derivation) t⟩ := by
  have hsource := h.exact source List.mem_cons_self
  have hfirst := h.sided.within source List.mem_cons_self
  have hwidth := henclosed.queued.2.1
  have hle := henclosed.queued.1.trans ht.1
  have hclosed := ht.2.1
  have hextent : (source.extent.cover u.top.extent).cover t.extent =
      ⟨source.extent.start, t.extent.stop⟩ :=
    cover_cover_eq (hfirst.1.le.trans hbefore) (hfirst.1.le.trans (hfirst.2.trans ht.1))
      (hfirst.2.trans (ht.1.trans hclosed.le)) (hle.trans hclosed.le)
  rw [Derived.Exact, show Derived.extent _ = _ from hextent]
  constructor
  · rintro _ ⟨d, hd, rfl⟩
    cases hd with
    | source uses =>
      obtain ⟨hstart, hstop⟩ := hsource.includes _ uses.mem_extents
      exact ⟨hstart, hstop.trans (hfirst.2.trans (ht.1.trans hclosed.le))⟩
    | collectionOpening => exact ⟨hfirst.1.le.trans hbefore, hle.trans hclosed.le⟩
    | accessor mem =>
      obtain ⟨hafter, hstop⟩ := h.accessors u.top List.mem_cons_self d mem
      refine ⟨?_, hstop.trans (ht.1.trans hclosed.le)⟩
      exact hfirst.1.le.trans (hbefore.trans (hwidth.le.trans hafter))
    | body mem uses =>
      obtain ⟨x, hx, rfl⟩ := Option.map_eq_some_iff.1 mem
      have hx := List.mem_of_head? hx
      obtain ⟨hafter, hstop⟩ := henclosed.contents x hx
      obtain ⟨hstart, hstop'⟩ := (hexact x hx).includes _ uses.mem_extents
      refine ⟨?_, hstop'.trans (hstop.trans hclosed.le)⟩
      exact hfirst.1.le.trans (hbefore.trans (hwidth.le.trans (hafter.trans hstart)))
    | collectionClose => exact ⟨hfirst.1.le.trans (hfirst.2.trans ht.1), le_rfl⟩
  · intro b hb
    have hleast := hsource.least b (by
      rintro _ ⟨d, hd, rfl⟩
      exact hb _ (Derivation.Uses.source hd).mem_extents)
    exact ⟨hleast.1, (hb _ Derivation.Uses.collectionClose.mem_extents).2⟩

theorem closed (h : Hulled s.operators s.operands mid) (ht : Ordered mid [t] stop)
    (hc : Closed g s t s') : Hulled s'.operators s'.operands stop := by
  have hle := ht.1.trans (ht.2.1.le.trans ht.2.2)
  have hsided := h.sided.closed ht hc
  have henclosed {u : Unwound}
      (hu : Trace.unwind g (g.linksOf t.rule) t.extent [] [] s.operators s.operands = some u) :=
    enclosed_of_unwind h.sided.queued ht.1 hu
  cases hc with
  | @call u overloads result unwound kind called =>
    obtain ⟨hu, hcontents⟩ := h.unwind unwound
    have hu' := henclosed unwound
    have htop := hu'.queued
    have hopen := htop.1.trans ht.1
    have hextent := called_extent (called_of_callFunction called) htop.2.1.le (htop.2.1.le.trans hopen)
      (hopen.trans ht.2.1.le) ht.2.1.le fun x hx => by
        obtain ⟨y, hy, rfl⟩ := List.mem_map.1 hx
        exact ⟨htop.2.1.le.trans (hu'.contents y hy).1, (hu'.contents y hy).2.trans ht.2.1.le⟩
    refine ⟨hsided, List.forall_mem_cons.2 ⟨?_, hu.exact⟩, (hu.drop.mono hle).accessors⟩
    refine exact_bracket hu' hcontents ht hextent .callOpening .callClose fun d hd => ?_
    cases hd with
    | callOpening => exact .inl rfl
    | argument mem uses =>
      obtain ⟨x, hx, rfl⟩ := List.mem_map.1 mem
      exact .inr (.inr (.inr ⟨x, hx, uses⟩))
    | delimiter mem => exact .inr (.inr (.inl mem))
    | callClose => exact .inr (.inl rfl)
  | @collection u build source rest element expr unwound kind single operands before element_eq built =>
    obtain ⟨hu, hcontents⟩ := h.unwind unwound
    have hu' := henclosed unwound
    rw [operands] at hu
    refine ⟨hsided, List.forall_mem_cons.2 ⟨?_, (List.forall_mem_cons.1 hu.exact).2⟩,
      (hu.drop.mono hle).accessors⟩
    exact exact_collection hu hu' hcontents ht before
  | @bracket u inner unwound kind single =>
    obtain ⟨hu, hcontents⟩ := h.unwind unwound
    have hu' := henclosed unwound
    have htop := hu'.queued
    have hopen := htop.1.trans ht.1
    have hinner : inner ∈ u.contents := by simp [single]
    obtain ⟨hafter, hbefore⟩ := hu'.contents inner hinner
    have hextent := cover_cover_eq (htop.2.1.le.trans hafter) (htop.2.1.le.trans hopen)
      (hopen.trans ht.2.1.le) (hbefore.trans ht.2.1.le)
    refine ⟨hsided, List.forall_mem_cons.2 ⟨?_, hu.exact⟩, (hu.drop.mono hle).accessors⟩
    refine exact_bracket hu' hcontents ht hextent .bracketOpening .bracketClose fun d hd => ?_
    cases hd with
    | bracketOpening => exact .inl rfl
    | inner uses => exact .inr (.inr (.inr ⟨inner, hinner, uses⟩))
    | bracketClose => exact .inr (.inl rfl)

/-! ## Runs -/

theorem apply (h : Hulled s.operators s.operands mid) (ht : Ordered mid [t] stop)
    (ha : Applied g s t s') : Hulled s'.operators s'.operands stop := by
  have hle := ht.1.trans (ht.2.1.le.trans ht.2.2)
  cases ha with
  | skip => exact h.mono hle
  | @operand build expr kind built =>
    have hsided := h.sided.apply ht (.operand kind built)
    refine ⟨hsided, List.forall_mem_cons.2 ⟨?_, h.exact⟩, (h.mono hle).accessors⟩
    refine ⟨?_, fun b hb => hb _ Derivation.Uses.token.mem_extents⟩
    rintro _ ⟨d, ⟨⟩, rfl⟩
    exact ⟨le_rfl, le_rfl⟩
  | waits _ folded => exact (h.foldWhile (fold_eq_some.1 folded).2).await ht
  | named _ named => exact h.named ht named
  | closed _ closed => exact h.closed ht closed

theorem applyAll {parameters : List Parameter} {ts : List Token} (ordered : Ordered 0 ts stop)
    (run : (Trace.start parameters).applyAll g ts = some s) : Hulled s.operators s.operands stop :=
  ordered_induction (P := fun stop s => Hulled s.operators s.operands stop)
    (fun _ => ⟨⟨trivial, by simp [Trace.start], by simp [Trace.start]⟩, by simp [Trace.start],
      by simp [Trace.start]⟩)
    (fun h ht ha => h.apply ht ha) ordered run

end Hulled

/-- An operator whose builder refuses is reported at the least extent that covers it and its operands. -/
theorem outcome_of_refused {ρ : Reduction} {precedence : Option Int} {build : OperatorBuilder}
    {args rest : List Operand} {refusal : Refusal}
    (kind : g.kind ρ.top.rule = .operator positions precedence build)
    (taken : ρ.taken positions = .ok (args, rest))
    (refused : build ρ.top.token.text (args.map Operand.expr) = .error refusal) :
    ρ.outcome g =
      .error ⟨ρ.top.extent.coverAll (args.map Operand.extent), .operationInvalid refusal⟩ := by
  rw [Reduction.outcome, Parlance.reduce, kind]
  refine (congrArg (· >>= _) taken).trans ?_
  change (Extent.checked _ (build ρ.top.token.text (args.map Operand.expr)) >>= _) = _
  rw [refused]
  rfl

end Trace

/-- The extent of every operand on the stack is the least one that covers its tokens, and so is that of
every operand that an operator finds there. An operator whose builder refuses is reported at the least
extent that covers it and its operands. -/
theorem extents_exact {g : Grammar} {parameters : List Parameter} {ts : List Token} {stop : Nat}
    {s : ParseState} (ordered : Ordered 0 ts stop)
    (run : (ParseState.start parameters).applyAll g ts = .ok s) :
    ∃ r : Trace, (Trace.start parameters).applyAll g ts = some r ∧ r.state = s ∧
      (∀ x ∈ r.operands, x.extent.Hull x.derivation.extents) ∧
      ∀ ρ, ((∃ t, ρ ∈ r.reductions g t) ∨ ρ ∈ r.lastReductions g) →
        (∀ x ∈ ρ.operands, x.extent.Hull x.derivation.extents) ∧
        ∀ positions precedence build args rest refusal,
          g.kind ρ.top.rule = .operator positions precedence build →
          ρ.taken positions = .ok (args, rest) →
          build ρ.top.token.text (args.map Operand.expr) = .error refusal →
          ∃ e : Extent, e.Hull {a | a = ρ.top.extent ∨ a ∈ args.map Operand.extent} ∧
            (∀ t, ρ ∈ r.reductions g t → s.apply g t = .error ⟨e, .operationInvalid refusal⟩) ∧
            (ρ ∈ r.lastReductions g → s.finish g = .error ⟨e, .operationInvalid refusal⟩) := by
  obtain ⟨r, hr, rfl⟩ := Trace.exists_of_applyAll run
  have hhulled := Trace.Hulled.applyAll ordered hr
  refine ⟨r, hr, rfl, hhulled.exact, fun ρ hρ => ⟨?_, ?_⟩⟩
  · exact (Trace.reductions_induction (g := g)
      (P := fun operators operands => Trace.Hulled operators operands stop) (fun h hr => h.reduce hr)
      (fun hafter h => (h.pop hafter).drop) hhulled hρ).exact
  · intro positions precedence build args rest refusal kind taken refused
    have houtcome := Trace.outcome_of_refused kind taken refused
    exact ⟨_, Extent.hull_coverAll, fun t ht => Trace.apply_of_reduction ht houtcome,
      fun hlast => Trace.finish_of_reduction hlast houtcome⟩

/-- Numbers in brackets, and an operator whose builder refuses. -/
def refusingRules : List Rule :=
  [.operand "NUMBER" "[0-9]+" fun _ => .ok .null,
    .operator "JOIN" "&" (some 1) [.left, .right] fun _ => .error (.host "no way to join"),
    .bracketOpen "OPEN" "\\(", .bracketClose "CLOSE" "\\)" ["OPEN"] none]

set_option maxRecDepth 100000 in
theorem refusingRules_fit : (Language.make? refusingRules).toOption.isSome = true := by decide +kernel

/-- The tokens of `(1)&20`. -/
def refusedTokens : List Token :=
  [⟨2, "(", ⟨0, 1⟩⟩, ⟨0, "1", ⟨1, 2⟩⟩, ⟨3, ")", ⟨2, 3⟩⟩, ⟨1, "&", ⟨3, 4⟩⟩, ⟨0, "20", ⟨4, 6⟩⟩]

set_option maxRecDepth 100000 in
/-- The refusal is reported from the bracket of the first number to the end of the second. -/
theorem extents_exact_refused :
    let g := (Language.ofRules refusingRules refusingRules_fit).grammar
    ∃ (r : Trace) (e : Extent), (Trace.start []).applyAll g refusedTokens = some r ∧
      r.operands.map Derived.extent = [⟨4, 6⟩, ⟨0, 3⟩] ∧
      (∀ x ∈ r.operands, x.extent.Hull x.derivation.extents) ∧
      e.Hull {a | a = ⟨3, 4⟩ ∨ a ∈ [⟨0, 3⟩, ⟨4, 6⟩]} ∧
      r.state.finish g = .error ⟨e, .operationInvalid (.host "no way to join")⟩ := by
  intro g
  have hruns : (((Trace.start []).applyAll g refusedTokens).any fun r =>
      r.operands.map Derived.extent == [⟨4, 6⟩, ⟨0, 3⟩] && (r.lastReductions g).any fun ρ =>
        ρ.top.rule == 1 && ρ.top.extent == ⟨3, 4⟩ && (ρ.taken [.left, .right]).toOption.any fun p =>
          p.1.map Operand.extent == [⟨0, 3⟩, ⟨4, 6⟩]) = true := by decide +kernel
  simp only [Bool.and_eq_true, Option.any_eq_true, List.any_eq_true, beq_iff_eq] at hruns
  obtain ⟨r, hr, hextents, ρ, hρ, ⟨hrule, htop⟩, ⟨args, rest⟩, htaken, hargs⟩ := hruns
  have hkind : g.kind ρ.top.rule =
      .operator [.left, .right] (some 1) fun _ _ => .error (.host "no way to join") := by
    rw [hrule, Grammar.kind, (of_make? (make?_eq_ofRules refusingRules_fit)).1]
    rfl
  have hrun := (Trace.state_applyAll g _ refusedTokens).symm.trans
    (congrArg (Option.map Trace.state) hr)
  obtain ⟨r', hr', -, hexact, hreductions⟩ :=
    @extents_exact g [] refusedTokens 6 _ (by decide) (toOption_eq_some.1 hrun)
  cases hr.symm.trans hr'
  obtain ⟨e, he, -, hlast⟩ := (hreductions ρ (.inr hρ)).2 _ _ _ args rest _ hkind
    (toOption_eq_some.1 htaken) rfl
  rw [htop, show args.map Operand.extent = _ from hargs] at he
  exact ⟨r, e, hr, hextents, hexact, he, hlast hρ⟩

end Parlance
