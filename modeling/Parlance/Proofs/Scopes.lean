import Parlance.Proofs.Links

/-!
# Parameters in scope

Besides the parameters at the start of a parse, those in scope are the elements that pending brackets
have named, each in the slot that its bracket has stored (`Trace.InScope`). Only brackets over
collections name something, and no reduction passes over one, so that an element goes out of scope with
its own bracket (`Rescoped`) and the slots follow the order in which the brackets wait.
-/

namespace Parlance

/-- The brackets that wait and have named their elements, the innermost first. -/
def ParseState.owners (s : ParseState) : List Activation := s.operators.filter (·.slot.isSome)

/-- What a token does to the parameters in scope: an accessor names the element of the bracket on top,
and the close of the innermost bracket that has named its element takes the element away. -/
inductive Rescoped (g : Grammar) (s : ParseState) (t : Token) (s' : ParseState) : Prop
  | kept (kind : g.kind t.rule ≠ .collectionAccessor) (parameters : s'.parameters = s.parameters)
      (owners : s'.owners = s.owners)
  | opened {top : Activation} {below : List Activation} {element : ValueType}
      (kind : g.kind t.rule = .collectionAccessor) (operators : s.operators = top :: below)
      (parameters : s'.parameters = s.parameters ++ [⟨some (accessorName t.text), element⟩])
      (owners : s'.owners = { top with slot := some s.parameters.length } :: s.owners)
  | closed {opening : Activation} {p : Parameter} (closes : g.Closes t opening.token)
      (parameters : s.parameters = s'.parameters ++ [p]) (owners : s.owners = opening :: s'.owners)

namespace Trace

/-- The brackets that have named their elements among those that wait. -/
def owners (operators : List Pending) : List Pending := operators.filter (·.activation.slot.isSome)

theorem owners_state (s : Trace) : s.state.owners = (owners s.operators).map Pending.activation := by
  rw [ParseState.owners, owners, state, List.filter_map]
  rfl

/-- The parameters in scope where some operators wait: those at the start, and behind them one for each
bracket over a collection that has named its element, in the slot that is stored. -/
inductive InScope (g : Grammar) (start : List Parameter) : List Pending → List Parameter → Prop
  | nil : InScope g start [] start
  | unnamed {a : Pending} {operators : List Pending} {parameters : List Parameter}
      (slot : a.activation.slot = none) (below : InScope g start operators parameters) :
      InScope g start (a :: operators) parameters
  | named {a : Pending} {operators : List Pending} {parameters : List Parameter} {p : Parameter}
      {build : CollectionBuilder} (kind : g.kind a.rule = .collectionBracket build)
      (slot : a.activation.slot = some parameters.length)
      (below : InScope g start operators parameters) :
      InScope g start (a :: operators) (parameters ++ [p])

variable {g : Grammar} {start parameters : List Parameter} {a top : Pending}
  {below operators : List Pending} {operands results : List Derived}

/-- No bracket is reduced. -/
theorem Reduced.kind_ne (hr : Reduced g top below operands results) (build : CollectionBuilder) :
    g.kind top.rule ≠ .collectionBracket build := by
  intro hk
  cases hr with
  | operation kind => rw [hk] at kind; cases kind
  | inert kind => rw [hk] at kind; cases kind

theorem kind_ne_of_separates (hlinked : g.Linked) {close delimiter : Token}
    (h : g.Separates close delimiter) (build : CollectionBuilder) :
    g.kind delimiter.rule ≠ .collectionBracket build := by
  intro hk
  have := hlinked.isDelimiter h
  rw [hk] at this
  cases this

namespace InScope

theorem kept (h : InScope g start operators parameters) : start <+: parameters := by
  induction h with
  | nil => exact List.prefix_rfl
  | unnamed _ _ ih => exact ih
  | named _ _ _ ih => exact ih.trans (List.prefix_append _ _)

theorem of_nil (h : InScope g start [] parameters) : start = parameters := by
  cases h
  rfl

theorem of_none (h : InScope g start (a :: operators) parameters) (ha : a.activation.slot = none) :
    InScope g start operators parameters := by
  cases h with
  | unnamed _ below => exact below
  | named _ slot => rw [ha] at slot; cases slot

theorem of_some {slot : Nat} (h : InScope g start (a :: operators) parameters)
    (ha : a.activation.slot = some slot) : parameters.length = slot + 1 ∧
      InScope g start operators (parameters.take slot) := by
  cases h with
  | unnamed slot => rw [ha] at slot; cases slot
  | named _ slot below =>
    rw [ha] at slot
    cases slot
    rw [List.take_left]
    exact ⟨by simp, below⟩

theorem slot_eq_none (h : InScope g start (top :: below) parameters)
    (hk : ∀ build, g.kind top.rule ≠ .collectionBracket build) : top.activation.slot = none := by
  cases h with
  | unnamed slot => exact slot
  | named kind => exact absurd kind (hk _)

theorem drop (h : InScope g start (top :: below) parameters)
    (hk : ∀ build, g.kind top.rule ≠ .collectionBracket build) : InScope g start below parameters :=
  h.of_none (h.slot_eq_none hk)

theorem owners_drop (h : InScope g start (top :: below) parameters)
    (hk : ∀ build, g.kind top.rule ≠ .collectionBracket build) : owners (top :: below) = owners below := by
  simp [owners, h.slot_eq_none hk]

theorem foldWhile {folds : RuleKind → Bool} {operators' : List Pending}
    (h : InScope g start operators parameters)
    (hf : foldWhile g folds operators operands = some (operators', results)) :
    InScope g start operators' parameters ∧ owners operators' = owners operators :=
  @foldWhile_induction g folds
    (fun below _ => InScope g start below parameters ∧ owners below = owners operators)
    (fun h hr => ⟨h.1.drop hr.kind_ne, (h.1.owners_drop hr.kind_ne).symm.trans h.2⟩) _ _ _ _ ⟨h, rfl⟩ hf

theorem unwind {close : Token} {opens : List String} {delimiter : Option String}
    (hlinked : g.Linked) (hk : g.kind close.rule = .bracketClose opens delimiter)
    {previous : Extent} {contents : List Derived} {delimiters : List Token} {u : Unwound}
    (h : InScope g start operators parameters)
    (hu : unwind g (g.linksOf close.rule) previous contents delimiters operators operands = some u) :
    g.Closes close u.top.token ∧ InScope g start (u.top :: u.operators) parameters ∧
      owners (u.top :: u.operators) = owners operators := by
  obtain ⟨hopens, -, -, -, h, -⟩ :=
    @unwind_induction g _
      (fun _ _ _ below _ => InScope g start below parameters ∧ owners below = owners operators)
      (fun h hr => ⟨h.1.drop hr.kind_ne, (h.1.owners_drop hr.kind_ne).symm.trans h.2⟩)
      (fun hdelimiter _ _ h => by
        have hk := kind_ne_of_separates hlinked ((hlinked.separates hk).1 hdelimiter)
        exact ⟨h.1.drop hk, (h.1.owners_drop hk).symm.trans h.2⟩)
      _ _ _ _ _ _ ⟨h, rfl⟩ hu
  exact ⟨(hlinked.closes hk).1 hopens, h⟩

/-- From bottom to top the slots are those behind the parameters at the start. -/
theorem slots_eq (h : InScope g start operators parameters) :
    operators.reverse.filterMap (·.activation.slot) =
      List.range' start.length (parameters.length - start.length) := by
  induction h with
  | nil => simp
  | unnamed slot _ ih => simpa [slot] using ih
  | @named a operators parameters p _ _ slot below ih =>
    have hle := below.kept.length_le
    have hlength : (parameters ++ [p]).length - start.length =
        parameters.length - start.length + 1 := by
      simp only [List.length_append, List.length_singleton]
      omega
    have hlast : start.length + (parameters.length - start.length) = parameters.length := by omega
    rw [List.reverse_cons, List.filterMap_append, ih, hlength, List.range'_concat]
    simp [slot, hlast]

theorem kind_of_mem (h : InScope g start operators parameters) (ha : a ∈ operators)
    (hslot : a.activation.slot.isSome = true) :
    ∃ build, g.kind a.rule = .collectionBracket build := by
  induction h with
  | nil => cases ha
  | unnamed slot _ ih =>
    rcases List.mem_cons.1 ha with rfl | ha
    · rw [slot] at hslot
      cases hslot
    · exact ih ha
  | named kind _ _ ih =>
    rcases List.mem_cons.1 ha with rfl | ha
    · exact ⟨_, kind⟩
    · exact ih ha

end InScope

/-! ## Steps -/

variable {s s' : Trace} {t : Token}

/-- A token keeps the parameters and the slots in step. -/
theorem InScope.apply (hlinked : g.Linked) (h : InScope g start s.operators s.parameters)
    (ha : Applied g s t s') : InScope g start s'.operators s'.parameters := by
  cases ha with
  | skip => exact h
  | operand => exact h
  | waits _ hf =>
    obtain ⟨hp, hf⟩ := fold_eq_some.1 hf
    have h := (h.foldWhile hf).1
    rw [← hp] at h
    exact .unnamed rfl h
  | named _ hn =>
    cases hn with
    | intro hops hk hslot =>
      rw [hops] at h
      exact .named hk rfl (h.of_none hslot)
  | @closed opens delimiter s' hk hc =>
    cases hc with
    | @call u overloads result hu hkind =>
      exact (h.unwind hlinked hk hu).2.1.drop fun build hbuild => by rw [hkind] at hbuild; cases hbuild
    | @collection u build source rest element expr hu hkind =>
      have h := (h.unwind hlinked hk hu).2.1
      cases hslot : u.top.activation.slot with
      | none => exact h.of_none hslot
      | some slot => exact (h.of_some hslot).2
    | bracket hu hkind => exact (h.unwind hlinked hk hu).2.1.drop hkind.2

theorem InScope.applyAll {ts : List Token} (hlinked : g.Linked)
    (h : (Trace.start start).applyAll g ts = some s) : InScope g start s.operators s.parameters :=
  @applyAll_induction g (fun _ s => InScope g start s.operators s.parameters)
    (fun _ _ _ _ h ha => h.apply hlinked ha) _ _ _ [] .nil h

/-- A token changes the parameters in scope only with the bracket that names or loses its element. -/
theorem InScope.rescoped (hlinked : g.Linked) (h : InScope g start s.operators s.parameters)
    (ha : Applied g s t s') : Rescoped g s.state t s'.state := by
  cases ha with
  | skip hk => exact .kept (by simp [hk]) rfl rfl
  | operand hk => exact .kept (by simp [hk]) rfl rfl
  | @waits folds s₁ hk hf =>
    obtain ⟨hp, hf⟩ := fold_eq_some.1 hf
    refine .kept (fun hk' => by rw [hk'] at hk; cases hk) hp ?_
    rw [owners_state, owners_state, ← (h.foldWhile hf).2]
    rfl
  | named hk hn =>
    cases hn with
    | @intro top below source rest build element hops hkind hslot =>
      refine .opened hk (by rw [state, hops, List.map_cons]) rfl ?_
      rw [owners_state, owners_state, hops]
      simp [owners, hslot, state]
  | @closed opens delimiter s' hk hc =>
    have hne : g.kind t.rule ≠ .collectionAccessor := by simp [hk]
    -- A bracket without an element leaves the parameters as they are.
    have hunnamed {u : Unwound} {s' : Trace} (hp : s'.parameters = s.parameters)
        (ho : s'.operators = u.operators) (hslot : u.top.activation.slot = none)
        (hu : Trace.unwind g (g.linksOf t.rule) t.extent [] [] s.operators s.operands = some u) :
        Rescoped g s.state t s'.state := by
      refine .kept hne hp ?_
      rw [owners_state, owners_state, ← (h.unwind hlinked hk hu).2.2, ho]
      simp [owners, hslot]
    cases hc with
    | @call u overloads result hu hkind =>
      refine hunnamed rfl rfl ((h.unwind hlinked hk hu).2.1.slot_eq_none fun build hbuild => ?_) hu
      rw [hkind] at hbuild
      cases hbuild
    | @collection u build source rest element expr hu hkind =>
      obtain ⟨hcloses, hscope, howners⟩ := h.unwind hlinked hk hu
      cases hslot : u.top.activation.slot with
      | none => exact hunnamed rfl rfl hslot hu
      | some slot =>
        obtain ⟨hlength, -⟩ := hscope.of_some hslot
        have hlast : slot < s.parameters.length := by omega
        refine @Rescoped.closed _ _ _ _ u.top.activation s.parameters[slot] hcloses ?_ ?_
        · have htake := List.take_append_getElem hlast
          rw [← hlength, List.take_length] at htake
          exact htake.symm
        · rw [owners_state, owners_state, ← howners]
          simp [owners, hslot]
    | bracket hu hkind => exact hunnamed rfl rfl ((h.unwind hlinked hk hu).2.1.slot_eq_none hkind.2) hu

/-- No bracket waits where a parse may end. -/
theorem InScope.parameters_of_finish {e : Expr} (h : InScope g start s.operators s.parameters)
    (hf : s.state.finish g = .ok e) : s.parameters = start := by
  have hx := (expr_finish g s).trans (toOption_eq_some.2 hf)
  obtain ⟨x, hx, -⟩ := Option.map_eq_some_iff.1 hx
  obtain ⟨s', hs', -⟩ := Option.bind_eq_some_iff.1 hx
  obtain ⟨-, hs'⟩ := fold_eq_some.1 hs'
  have h := (h.foldWhile hs').1
  rw [foldWhile_true hs'] at h
  exact h.of_nil.symm

end Trace

end Parlance
