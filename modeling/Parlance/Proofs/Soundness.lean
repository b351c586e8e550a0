import Parlance.Proofs.Links

/-!
# What is accepted follows the rules

Over plain rules every operand on the stack has a derivation that follows the rules, and no token that
was read is lost: each is in the derivation of an operand or still waits. `Sound` is this invariant; it
also keeps operands apart from what waits, which tells where an operator may take its operands from. At
the end one operand holds all tokens, and tokens stand in one order only.
-/

namespace Parlance

/-! ## Extents -/

theorem coverAll_within {lo hi : Nat} {e : Extent} {es : List Extent}
    (he : lo ≤ e.start ∧ e.stop ≤ hi) (hes : ∀ x ∈ es, lo ≤ x.start ∧ x.stop ≤ hi) :
    lo ≤ (e.coverAll es).start ∧ (e.coverAll es).stop ≤ hi := by
  induction es generalizing e with
  | nil => exact he
  | cons x es ih =>
    have hx := hes x List.mem_cons_self
    refine ih (e := e.cover x) ?_ fun y hy => hes y (List.mem_cons_of_mem _ hy)
    simp only [Extent.cover]
    omega

theorem operand_coverAll_within {lo hi : Nat} {xs : List Operand}
    (hxs : ∀ x ∈ xs, lo ≤ x.extent.start ∧ x.extent.stop ≤ hi) (hne : xs ≠ []) :
    lo ≤ (Operand.coverAll xs).start ∧ (Operand.coverAll xs).stop ≤ hi := by
  cases xs with
  | nil => exact absurd rfl hne
  | cons x xs =>
    refine coverAll_within (hxs x List.mem_cons_self) fun e he => ?_
    obtain ⟨y, hy, rfl⟩ := List.mem_map.1 he
    exact hxs y (List.mem_cons_of_mem _ hy)

theorem cover_cover_eq {a b c : Extent} (hab : a.start ≤ b.start) (hac : a.start ≤ c.start)
    (hac' : a.stop ≤ c.stop) (hbc : b.stop ≤ c.stop) : (a.cover b).cover c = ⟨a.start, c.stop⟩ := by
  simp only [Extent.cover, Extent.mk.injEq]
  omega

/-- A call extends from its opening to its close. -/
theorem called_extent {overloads : List Overload} {contents : List Operand} {opening close : Extent}
    {result : Operand} (h : Called overloads contents opening close result)
    (hopening : opening.start ≤ opening.stop) (hstart : opening.start ≤ close.start)
    (hstop : opening.stop ≤ close.stop) (hclose : close.start ≤ close.stop)
    (hwithin : ∀ x ∈ contents, opening.start ≤ x.extent.start ∧ x.extent.stop ≤ close.stop) :
    result.extent = ⟨opening.start, close.stop⟩ := by
  cases h with
  | intro =>
    dsimp only
    split
    · refine cover_cover_eq ?_ hstart hstop ?_
      · exact hopening
      · simp only [Extent.gap]
        omega
    · rename_i hne
      have h := operand_coverAll_within hwithin fun hnil => hne (by simp [hnil])
      exact cover_cover_eq h.1 hstart hstop h.2

namespace Derivation

theorem Formed.tokens_ne_nil {g : Grammar} {d : Derivation} (h : d.Formed g) : d.tokens ≠ [] := by
  cases h with
  | @call opening close args delimiters => cases args <;> simp [tokens]
  | _ => simp [tokens]

end Derivation

namespace Trace

/-- The derivations on a stack follow the rules and stand where their tokens do, apart from what waits;
together with what waits, and with tokens that are held aside, they have all tokens read. -/
structure Sound (g : Grammar) (read : List Token) (stop : Nat) (held : List Token)
    (operators : List Pending) (operands : List Derived) : Prop where
  read_ordered : Ordered 0 read stop
  read_plain : ∀ t ∈ read, (g.kind t.rule).Plain
  perm : (operators.map Pending.token ++ (operands.flatMap (·.derivation.tokens) ++ held)).Perm read
  waits : ∀ a ∈ operators, (g.kind a.rule).isInert = false
  sorted : operators.Pairwise fun a b => b.extent.stop ≤ a.extent.start
  formed : ∀ x ∈ operands, x.derivation.Formed g
  ordered : ∀ x ∈ operands, Ordered x.extent.start x.derivation.tokens x.extent.stop
  apart : ∀ x ∈ operands, ∀ a ∈ operators,
    x.extent.stop ≤ a.extent.start ∨ a.extent.stop ≤ x.extent.start
  bound : ∀ x ∈ operands, x.extent.stop ≤ stop

namespace Sound

variable {g : Grammar} {read held : List Token} {top : Pending} {below operators : List Pending}
  {operands results rest : List Derived} {stop : Nat}

theorem start_lt_stop (h : Sound g read stop held operators operands) {x : Derived}
    (hx : x ∈ operands) : x.extent.start < x.extent.stop := by
  obtain ⟨t, ht⟩ := List.exists_mem_of_ne_nil _ (h.formed x hx).tokens_ne_nil
  have := (h.ordered x hx).mem ht
  omega

theorem mem_read (h : Sound g read stop held operators operands) {a : Pending} (ha : a ∈ operators) :
    a.token ∈ read :=
  h.perm.mem_iff.1 (List.mem_append_left _ (List.mem_map_of_mem ha))

/-- The operator on top may give way to a derivation that it joins with the operands beside it. -/
theorem join (h : Sound g read stop held (top :: below) (operands ++ rest)) {x : Derived}
    (hformed : x.derivation.Formed g)
    (hordered : Ordered x.extent.start x.derivation.tokens x.extent.stop)
    (hperm : x.derivation.tokens.Perm (top.token :: operands.flatMap (·.derivation.tokens)))
    (hbelow : ∀ a ∈ below, a.extent.stop ≤ x.extent.start) (hbound : x.extent.stop ≤ stop) :
    Sound g read stop held below (x :: rest) where
  read_ordered := h.read_ordered
  read_plain := h.read_plain
  perm := by
    refine List.Perm.trans ?_ h.perm
    rw [List.perm_iff_count] at hperm ⊢
    intro t
    have := hperm t
    simp only [List.map_cons, List.flatMap_cons, List.flatMap_append, List.count_append,
      List.count_cons] at this ⊢
    omega
  waits := fun a ha => h.waits a (List.mem_cons_of_mem _ ha)
  sorted := (List.pairwise_cons.1 h.sorted).2
  formed := List.forall_mem_cons.2 ⟨hformed, fun y hy => h.formed y (List.mem_append_right _ hy)⟩
  ordered := List.forall_mem_cons.2 ⟨hordered, fun y hy => h.ordered y (List.mem_append_right _ hy)⟩
  apart := List.forall_mem_cons.2 ⟨fun a ha => .inr (hbelow a ha),
    fun y hy a ha => h.apart y (List.mem_append_right _ hy) a (List.mem_cons_of_mem _ ha)⟩
  bound := List.forall_mem_cons.2 ⟨hbound, fun y hy => h.bound y (List.mem_append_right _ hy)⟩

/-- A reduction keeps the invariant. -/
theorem reduce (h : Sound g read stop held (top :: below) operands)
    (hr : Reduced g top below operands results) : Sound g read stop held below results := by
  have hbelow : ∀ a ∈ below, a.extent.stop ≤ top.extent.start :=
    (List.pairwise_cons.1 h.sorted).1
  have hmem := h.mem_read (List.mem_cons_self (a := top))
  obtain ⟨-, htop, hstop⟩ : 0 ≤ top.extent.start ∧ top.extent.start < top.extent.stop ∧
      top.extent.stop ≤ stop := h.read_ordered.mem hmem
  have hboundary (a : Pending) (ha : a ∈ below) :
      a.extent.stop ≤ boundaryOf (below.map Pending.activation) := by
    cases below with
    | nil => cases ha
    | cons b below =>
      change _ ≤ b.extent.stop
      rcases List.mem_cons.1 ha with rfl | ha
      · exact le_rfl
      · have := (List.pairwise_cons.1 (List.pairwise_cons.1 h.sorted).2).1 a ha
        have : b.extent.start < b.extent.stop :=
          (h.read_ordered.mem (h.mem_read (List.mem_cons_of_mem _ List.mem_cons_self))).2.1
        omega
  have hjoined := joined_of_reduced (h.read_plain _ hmem) (h.waits top List.mem_cons_self) hr
  cases hjoined with
  | @lead x rest expr operator after next =>
    have hx : x ∈ x :: rest := List.mem_cons_self
    have hlt := h.start_lt_stop hx
    have hextent : top.extent.cover x.extent = ⟨top.extent.start, x.extent.stop⟩ := by
      simp only [Extent.cover, Extent.mk.injEq]
      omega
    rw [hextent]
    have hordered : Ordered top.extent.start (top.token :: x.derivation.tokens) x.extent.stop :=
      ⟨le_rfl, htop, (h.ordered x hx).mono after le_rfl⟩
    exact @join _ _ _ _ _ [x] _ _ h _ (.lead operator (h.formed x hx)) (by simpa using hordered)
      (by simp) hbelow (h.bound x hx)
  | @trail x rest expr operator before inside =>
    have hx : x ∈ x :: rest := List.mem_cons_self
    have hlt := h.start_lt_stop hx
    have hapart := h.apart x hx top List.mem_cons_self
    have hextent : top.extent.cover x.extent = ⟨x.extent.start, top.extent.stop⟩ := by
      simp only [Extent.cover, Extent.mk.injEq]
      omega
    rw [hextent]
    have hordered : Ordered x.extent.start (x.derivation.tokens ++ [top.token]) top.extent.stop :=
      Ordered.append_iff.2 ⟨_, h.ordered x hx, (by omega : x.extent.stop ≤ top.extent.start), htop,
        le_rfl⟩
    exact @join _ _ _ _ _ [x] _ _ h _ (.trail operator (h.formed x hx)) (by simpa using hordered)
      (by simp) (fun a ha => (hboundary a ha).trans inside) hstop
  | @join x y rest expr operator after before inside =>
    have hx : x ∈ y :: x :: rest := by simp
    have hy : y ∈ y :: x :: rest := by simp
    have hltx := h.start_lt_stop hx
    have hlty := h.start_lt_stop hy
    have hapart := h.apart x hx top List.mem_cons_self
    have hextent : (top.extent.cover x.extent).cover y.extent = ⟨x.extent.start, y.extent.stop⟩ := by
      simp only [Extent.cover, Extent.mk.injEq]
      omega
    rw [hextent]
    have hordered : Ordered x.extent.start (x.derivation.tokens ++ top.token :: y.derivation.tokens)
        y.extent.stop :=
      Ordered.append_iff.2 ⟨_, h.ordered x hx, (by omega : x.extent.stop ≤ top.extent.start), htop,
        (h.ordered y hy).mono after le_rfl⟩
    have hperm : (x.derivation.tokens ++ top.token :: y.derivation.tokens).Perm
        (top.token :: (y.derivation.tokens ++ x.derivation.tokens)) := List.perm_append_comm
    exact @join _ _ _ _ _ [y, x] _ _ h _ (.join operator (h.formed x hx) (h.formed y hy))
      (by simpa using hordered) (by simpa using hperm) (fun a ha => (hboundary a ha).trans inside)
      (h.bound y hy)

theorem foldWhile {folds : RuleKind → Bool} {operators' : List Pending}
    (h : Sound g read stop held operators operands)
    (hf : foldWhile g folds operators operands = some (operators', results)) :
    Sound g read stop held operators' results := by
  induction operators generalizing operands with
  | nil =>
    cases hf
    exact h
  | cons top below ih =>
    simp only [Trace.foldWhile] at hf
    split at hf
    · obtain ⟨next, hr, hf⟩ := Option.bind_eq_some_iff.1 hf
      exact ih (h.reduce (reduce_eq_some.1 hr)) hf
    · cases hf
      exact h

/-! ## Brackets -/

/-- What waits on top and the operands on top may be held aside. -/
theorem hold (xs : List Derived) {held' : List Token}
    (h : Sound g read stop held (top :: below) (xs ++ rest))
    (hperm : held'.Perm (top.token :: (xs.flatMap (·.derivation.tokens) ++ held))) :
    Sound g read stop held' below rest where
  read_ordered := h.read_ordered
  read_plain := h.read_plain
  perm := by
    refine List.Perm.trans ?_ h.perm
    rw [List.perm_iff_count] at hperm ⊢
    intro t
    have := hperm t
    simp only [List.map_cons, List.flatMap_append, List.count_append, List.count_cons] at this ⊢
    omega
  waits := fun a ha => h.waits a (List.mem_cons_of_mem _ ha)
  sorted := (List.pairwise_cons.1 h.sorted).2
  formed := fun x hx => h.formed x (List.mem_append_right _ hx)
  ordered := fun x hx => h.ordered x (List.mem_append_right _ hx)
  apart := fun x hx a ha => h.apart x (List.mem_append_right _ hx) a (List.mem_cons_of_mem _ ha)
  bound := fun x hx => h.bound x (List.mem_append_right _ hx)

/-- The tokens from a delimiter on to a close bracket, with the arguments between them. -/
structure Tail (g : Grammar) (close : Token) (previous : Extent) (contents : List Derived)
    (delimiters : List Token) : Prop where
  length : delimiters.length = contents.length
  formed : ∀ x ∈ contents, x.derivation.Formed g
  separates : ∀ t ∈ delimiters, g.Separates close t
  ordered : Ordered previous.start
    (Derivation.followed delimiters (contents.map Derived.derivation) ++ [close]) close.extent.stop
  within : ∀ x ∈ contents, previous.start ≤ x.extent.start ∧ x.extent.stop ≤ close.extent.stop

/-- What unwinding leaves: the derivations of the contents of a bracket that is closed, and an invariant
below in which all tokens of the bracket are held. -/
structure Enclosed (g : Grammar) (read : List Token) (stop : Nat) (close : Token) (u : Unwound) :
    Prop where
  sound : Sound g read stop (Derivation.call u.top.token (u.contents.map Derived.derivation) u.delimiters
    close).tokens u.operators u.operands
  closes : g.Closes close u.top.token
  length : u.delimiters.length = u.contents.length - 1
  formed : ∀ x ∈ u.contents, x.derivation.Formed g
  separates : ∀ t ∈ u.delimiters, g.Separates close t
  ordered : Ordered u.top.extent.start (Derivation.call u.top.token
    (u.contents.map Derived.derivation) u.delimiters close).tokens close.extent.stop
  within : ∀ x ∈ u.contents, u.top.extent.start ≤ x.extent.start ∧
    x.extent.stop ≤ close.extent.stop
  below : ∀ a ∈ u.operators, a.extent.stop ≤ u.top.extent.start

theorem Enclosed.top_mem {close : Token} {u : Unwound} (h : Enclosed g read stop close u) :
    u.top.extent.start < u.top.extent.stop ∧ u.top.extent.start ≤ close.extent.start ∧
      u.top.extent.stop ≤ close.extent.stop := by
  have hclose := h.ordered.mem (t := close) (by cases u.contents <;> simp [Derivation.tokens])
  have htop := h.ordered.mem (t := u.top.token) (by cases u.contents <;> simp [Derivation.tokens])
  exact ⟨htop.2.1, hclose.1, htop.2.2⟩

theorem Enclosed.top_mem_read {close : Token} {u : Unwound} (h : Enclosed g read stop close u) :
    u.top.token ∈ read := by
  refine h.sound.perm.mem_iff.1 (List.mem_append_right _ (List.mem_append_right _ ?_))
  cases u.contents <;> simp [Derivation.tokens]

/-- Unwinding finds the opening of the bracket with what it holds. -/
theorem unwind {close : Token} {opens : List String} {delimiter : Option String}
    {previous : Extent} {contents : List Derived} {delimiters : List Token} {u : Unwound}
    (hlinked : g.Linked) (hk : g.kind close.rule = .bracketClose opens delimiter)
    (h : Sound g read stop
      (Derivation.followed delimiters (contents.map Derived.derivation) ++ [close]) operators operands)
    (ht : Tail g close previous contents delimiters)
    (hprevious : ∀ a ∈ operators, a.extent.stop ≤ previous.start)
    (hu : unwind g (g.linksOf close.rule) previous contents delimiters operators operands = some u) :
    Enclosed g read stop close u := by
  induction operators generalizing previous contents delimiters operands with
  | nil => cases hu
  | cons top below ih =>
    have hbelow : ∀ a ∈ below, a.extent.stop ≤ top.extent.start :=
      (List.pairwise_cons.1 h.sorted).1
    have htop : top.extent.start < top.extent.stop :=
      (h.read_ordered.mem (h.mem_read List.mem_cons_self)).2.1
    have htail {x : Derived} {rest : List Derived} (hx : operands = x :: rest)
        (hafter : top.extent.stop ≤ x.extent.start) (hbefore : x.extent.stop ≤ previous.start) :
        Ordered top.extent.start (top.token :: (x.derivation.tokens ++
          (Derivation.followed delimiters (contents.map Derived.derivation) ++ [close])))
          close.extent.stop := by
      subst hx
      have hx := (h.ordered x List.mem_cons_self).mono hafter hbefore
      exact ⟨le_rfl, htop, Ordered.append_iff.2 ⟨_, hx, ht.ordered⟩⟩
    have hwithin {x : Derived} {rest : List Derived} (hx : operands = x :: rest)
        (hafter : top.extent.stop ≤ x.extent.start) (hbefore : x.extent.stop ≤ previous.start) :
        ∀ y ∈ x :: contents, top.extent.start ≤ y.extent.start ∧
          y.extent.stop ≤ close.extent.stop := by
      have := (htail hx hafter hbefore).le
      have := h.start_lt_stop (x := x) (by simp [hx])
      have := ht.ordered.le
      refine List.forall_mem_cons.2 ⟨by omega, fun y hy => ?_⟩
      have := ht.within y hy
      omega
    simp only [Trace.unwind] at hu
    split at hu
    · rename_i hopens
      have hcloses : g.Closes close top.token := (hlinked.closes hk).1 hopens
      split at hu
      · rename_i x rest htake
        obtain ⟨rfl, hafter, hbefore⟩ := takeBetween?_eq_some.1 htake
        cases hu
        have hx : x ∈ x :: rest := List.mem_cons_self
        constructor
        case sound =>
          refine h.hold [x] ?_
          simp [Derivation.tokens]
        case closes => exact hcloses
        case length => simp [ht.length]
        case formed => exact List.forall_mem_cons.2 ⟨h.formed x hx, ht.formed⟩
        case separates => exact ht.separates
        case ordered => simpa [Derivation.tokens] using htail rfl hafter hbefore
        case within => exact hwithin rfl hafter hbefore
        case below => exact hbelow
      · split at hu
        · rename_i hempty
          cases hu
          obtain rfl := List.isEmpty_iff.1 hempty
          obtain rfl := List.length_eq_zero_iff.1 ht.length.symm
          constructor
          case sound =>
            refine h.hold [] ?_
            simp [Derivation.tokens, Derivation.followed]
          case closes => exact hcloses
          case length => rfl
          case formed => exact ht.formed
          case separates => exact ht.separates
          case ordered =>
            have hordered := ht.ordered
            have := hprevious top List.mem_cons_self
            exact ⟨le_rfl, htop, hordered.mono this le_rfl⟩
          case within => simp
          case below => exact hbelow
        · cases hu
    split at hu
    · rename_i hdelimiter
      have hseparates : g.Separates close top.token := (hlinked.separates hk).1 hdelimiter
      split at hu
      · rename_i x rest htake
        obtain ⟨rfl, hafter, hbefore⟩ := takeBetween?_eq_some.1 htake
        have hx : x ∈ x :: rest := List.mem_cons_self
        refine ih ?_ ?_ hbelow hu
        · refine h.hold [x] ?_
          simp [Derivation.followed]
        · constructor
          case length => simp [ht.length]
          case formed => exact List.forall_mem_cons.2 ⟨h.formed x hx, ht.formed⟩
          case separates => exact List.forall_mem_cons.2 ⟨hseparates, ht.separates⟩
          case ordered => simpa [Derivation.followed] using htail rfl hafter hbefore
          case within => exact hwithin rfl hafter hbefore
      · cases hu
    · obtain ⟨results, hr, hu⟩ := Option.bind_eq_some_iff.1 hu
      have hprevious := fun a ha => hprevious a (List.mem_cons_of_mem _ ha)
      exact ih (h.reduce (reduce_eq_some.1 hr)) ht hprevious hu

/-! ## Tokens -/

/-- The next token is held aside. -/
theorem take {mid : Nat} {t : Token} (h : Sound g read mid [] operators operands)
    (ht : Ordered mid [t] stop) (hplain : (g.kind t.rule).Plain) :
    Sound g (read ++ [t]) stop [t] operators operands ∧
      ∀ a ∈ operators, a.extent.stop ≤ t.extent.start := by
  refine ⟨?_, fun a ha => (h.read_ordered.mem (h.mem_read ha)).2.2.trans ht.1⟩
  constructor
  case read_ordered => exact Ordered.append_iff.2 ⟨mid, h.read_ordered, ht⟩
  case read_plain =>
    intro u hu
    rcases List.mem_append.1 hu with hu | hu
    · exact h.read_plain u hu
    · exact List.mem_singleton.1 hu ▸ hplain
  case perm => simpa [← List.append_assoc] using h.perm.append_right [t]
  case waits => exact h.waits
  case sorted => exact h.sorted
  case formed => exact h.formed
  case ordered => exact h.ordered
  case apart => exact h.apart
  case bound => exact fun x hx => (h.bound x hx).trans ht.le

/-- A derivation of the tokens held aside goes on the stack. -/
theorem push (h : Sound g read stop held operators operands) {x : Derived}
    (hformed : x.derivation.Formed g)
    (hordered : Ordered x.extent.start x.derivation.tokens x.extent.stop)
    (hperm : x.derivation.tokens.Perm held)
    (hbelow : ∀ a ∈ operators, a.extent.stop ≤ x.extent.start) (hbound : x.extent.stop ≤ stop) :
    Sound g read stop [] operators (x :: operands) where
  read_ordered := h.read_ordered
  read_plain := h.read_plain
  perm := by
    refine List.Perm.trans ?_ h.perm
    rw [List.perm_iff_count] at hperm ⊢
    intro t
    have := hperm t
    simp only [List.flatMap_cons, List.count_append, List.count_nil]
    omega
  waits := h.waits
  sorted := h.sorted
  formed := List.forall_mem_cons.2 ⟨hformed, h.formed⟩
  ordered := List.forall_mem_cons.2 ⟨hordered, h.ordered⟩
  apart := List.forall_mem_cons.2 ⟨fun a ha => .inr (hbelow a ha), h.apart⟩
  bound := List.forall_mem_cons.2 ⟨hbound, h.bound⟩

/-- The token held aside waits. -/
theorem await {t : Token} {mid : Nat} (h : Sound g read mid [] operators operands)
    (ht : Ordered mid [t] stop) (hplain : (g.kind t.rule).Plain)
    (hwaits : (g.kind t.rule).isInert = false) :
    Sound g (read ++ [t]) stop [] (⟨⟨t, none⟩, none⟩ :: operators) operands := by
  obtain ⟨h', hbelow⟩ := h.take ht hplain
  constructor
  case read_ordered => exact h'.read_ordered
  case read_plain => exact h'.read_plain
  case perm =>
    refine List.Perm.trans ?_ h'.perm
    change (t :: operators.map Pending.token ++ _).Perm _
    rw [List.perm_iff_count]
    intro u
    simp only [List.count_append, List.count_cons, List.count_nil]
    omega
  case waits => exact List.forall_mem_cons.2 ⟨hwaits, h.waits⟩
  case sorted => exact List.pairwise_cons.2 ⟨hbelow, h.sorted⟩
  case formed => exact h.formed
  case ordered => exact h.ordered
  case apart =>
    exact fun x hx => List.forall_mem_cons.2 ⟨.inl ((h.bound x hx).trans ht.1), h.apart x hx⟩
  case bound => exact h'.bound

theorem close {t : Token} {s s' : Trace} {opens : List String} {delimiter : Option String}
    (hlinked : g.Linked) (hk : g.kind t.rule = .bracketClose opens delimiter)
    (h : Sound g read stop [t] s.operators s.operands)
    (hbelow : ∀ a ∈ s.operators, a.extent.stop ≤ t.extent.start) (hc : Closed g s t s') :
    Sound g read stop [] s'.operators s'.operands := by
  have ht := h.read_ordered.mem (h.perm.mem_iff.1 (by simp : t ∈ _))
  have hfirst : Tail g t t.extent [] [] :=
    ⟨rfl, by simp, by simp, ⟨le_rfl, ht.2.1, le_rfl⟩, by simp⟩
  have henclosed {u : Unwound}
      (hu : Trace.unwind g (g.linksOf t.rule) t.extent [] [] s.operators s.operands = some u) :=
    unwind hlinked hk (by simpa [Derivation.followed] using h) hfirst hbelow hu
  cases hc with
  | @call u overloads result hu hkind hcalled =>
    have he := henclosed hu
    have hextent := called_extent (called_of_callFunction hcalled) he.top_mem.1.le he.top_mem.2.1
      he.top_mem.2.2 ht.2.1.le fun x hx => by
        obtain ⟨y, hy, rfl⟩ := List.mem_map.1 hx
        exact he.within y hy
    have hformed : (Derivation.call u.top.token (u.contents.map Derived.derivation) u.delimiters
        t).Formed g := by
      refine .call ⟨_, hkind⟩ (fun d hd => ?_) he.separates (by simpa using he.length) he.closes
      obtain ⟨x, hx, rfl⟩ := List.mem_map.1 hd
      exact he.formed x hx
    refine he.sound.push hformed ?_ (List.Perm.refl _) ?_ ?_
    · rw [show Derived.extent _ = _ from hextent]
      exact he.ordered
    · rw [show Derived.extent _ = _ from hextent]
      exact he.below
    · rw [show Derived.extent _ = _ from hextent]
      exact ht.2.2
  | @collection u build source rest element expr hu hkind =>
    have he := henclosed hu
    have hplain := he.sound.read_plain _ he.top_mem_read
    rw [hkind] at hplain
    exact hplain.elim
  | @bracket u inner hu hkind hsingle =>
    have he := henclosed hu
    have hopen : g.IsOpen u.top.token := by
      have hopens := hlinked.isOpen he.closes
      cases hk' : g.kind u.top.token.rule with
      | bracketOpen => exact hk'
      | functionCall overloads => exact absurd hk' (hkind.1 overloads)
      | collectionBracket build => exact absurd hk' (hkind.2 build)
      | _ => simp [RuleKind.isOpen, hk'] at hopens
    have hwithin := he.within inner (by simp [hsingle])
    have hextent := cover_cover_eq hwithin.1 he.top_mem.2.1 he.top_mem.2.2 hwithin.2
    have hformed : (Derivation.bracket u.top.token inner.derivation t).Formed g :=
      .bracket hopen (he.formed inner (by simp [hsingle])) he.closes
    have htokens : (Derivation.bracket u.top.token inner.derivation t).tokens =
        (Derivation.call u.top.token (u.contents.map Derived.derivation) u.delimiters t).tokens := by
      simp [Derivation.tokens, Derivation.followed, hsingle]
    rw [hextent]
    exact he.sound.push hformed (htokens ▸ he.ordered) (htokens ▸ List.Perm.refl _) he.below ht.2.2

/-- Every token keeps the invariant. -/
theorem apply {mid : Nat} {t : Token} {s s' : Trace} (hlinked : g.Linked)
    (h : Sound g read mid [] s.operators s.operands) (ht : Ordered mid [t] stop)
    (hplain : (g.kind t.rule).Plain) (ha : Applied g s t s') :
    Sound g (read ++ [t]) stop [] s'.operators s'.operands := by
  obtain ⟨htake, hbelow⟩ := h.take ht hplain
  cases ha with
  | skip hk =>
    rw [hk] at hplain
    exact hplain.elim
  | operand hk hb =>
    exact htake.push (.token (by simp [Grammar.isOperand, hk])) ⟨le_rfl, ht.2.1, le_rfl⟩
      (List.Perm.refl _) hbelow ht.2.2
  | waits hk hf =>
    have h' := h.foldWhile (fold_eq_some.1 hf).2
    exact h'.await ht hplain hk
  | named hk =>
    rw [hk] at hplain
    exact hplain.elim
  | closed hk hc => exact htake.close hlinked hk hbelow hc

/-- Along every run over plain rules the stack is sound. -/
theorem applyAll {parameters : List Parameter} {ts : List Token} {s : Trace} (hlinked : g.Linked)
    (hordered : Ordered 0 ts stop) (hplain : ∀ t ∈ ts, (g.kind t.rule).Plain)
    (h : (start parameters).applyAll g ts = some s) : Sound g ts stop [] s.operators s.operands := by
  let P (read : List Token) (s : Trace) : Prop := ∀ stop, Ordered 0 read stop →
    (∀ t ∈ read, (g.kind t.rule).Plain) → Sound g read stop [] s.operators s.operands
  have hstart : P [] (start parameters) := fun stop hordered hplain =>
    ⟨hordered, hplain, by simp [start], by simp [start], by simp [start], by simp [start],
      by simp [start], by simp [start], by simp [start]⟩
  have hstep (read : List Token) (s : Trace) (t : Token) (s' : Trace) (hs : P read s)
      (ha : Applied g s t s') : P (read ++ [t]) s' := by
    intro stop hordered hplain
    obtain ⟨mid, hread, ht⟩ := Ordered.append_iff.1 hordered
    have hs := hs mid hread fun u hu => hplain u (List.mem_append_left _ hu)
    exact hs.apply hlinked ht (hplain t (by simp)) ha
  exact applyAll_induction hstep [] hstart h stop hordered hplain

end Sound

/-- What is accepted has a derivation that follows the rules. -/
theorem formed_of_parse {g : Grammar} {parameters : List Parameter} {ts : List Token} {stop : Nat}
    {x : Derived} (hlinked : g.Linked) (hordered : Ordered 0 ts stop)
    (hplain : ∀ t ∈ ts, (g.kind t.rule).Plain) (h : parse g parameters ts = some x) :
    x.derivation.Formed g ∧ x.derivation.tokens = ts := by
  obtain ⟨s, hs, h⟩ := Option.bind_eq_some_iff.1 h
  obtain ⟨s', hf, h⟩ := Option.bind_eq_some_iff.1 h
  have hsound := (Sound.applyAll hlinked hordered hplain hs).foldWhile (fold_eq_some.1 hf).2
  have hoperators := foldWhile_true (fold_eq_some.1 hf).2
  rw [hoperators, sole?_eq_some h] at hsound
  refine ⟨hsound.formed x (by simp), ?_⟩
  exact (hsound.ordered x (by simp)).eq_of_perm hordered (by simpa using hsound.perm)

end Trace

end Parlance
