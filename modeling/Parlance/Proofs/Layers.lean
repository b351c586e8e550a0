import Parlance.Proofs.Coercion
import Parlance.Proofs.Scopes

/-!
# Typed operands

Where the builders of a grammar make typed expressions of typed ones, so does a parse
(`Trace.typed_of_parse`). Operands inside a bracket that has named its element may refer to it, those
below may not: the stack is in layers, each typed in the scope that was there when its bracket opened.
A bracket inside another one may take the operand away that the outer one stands behind; what it makes
of that reaches into the outer bracket, which then never closes, so nothing is claimed of what lies
below.
-/

namespace Parlance

/-! ## Builders -/

/-- The builder of an overload makes typed calls of typed arguments. -/
structure Overload.Sound (o : Overload) : Prop where
  parameters : ∀ types ∈ o.parameters, ∀ t ∈ types, t.WellFormed
  build : ∀ {wf : Prop} {Γ : List ValueType} {args : List Expr} {e : Expr},
    (wf → ∀ t ∈ Γ, t.WellFormed) →
    (∀ a ∈ args, a.Typed wf Γ) → o.build args = .ok e → e.Typed wf Γ

/-- The predicate makes sense where its element has a type and, if it is named, is bound behind the
parameters in scope. -/
structure CollectionBody.Typed (wf : Prop) (Γ : List ValueType) (element : ValueType) (body : CollectionBody) :
    Prop where
  slot : ∀ p ∈ body.parameter, p.1 = Γ.length
  body : ∀ b ∈ body.body, b.Typed wf (if body.parameter.isSome then Γ ++ [element] else Γ)

/-- A builder makes typed expressions of typed ones. -/
def RuleKind.Sound : RuleKind → Prop
  | operand build => ∀ ⦃wf : Prop⦄ ⦃text : String⦄ ⦃parameters : List Parameter⦄ ⦃e : Expr⦄,
      (wf → ∀ t ∈ parameters.map Parameter.type, t.WellFormed) → build text parameters = .ok e →
        e.Typed wf (parameters.map Parameter.type)
  | operator _ _ build => ∀ ⦃wf : Prop⦄ ⦃Γ : List ValueType⦄ ⦃text : String⦄ ⦃args : List Expr⦄ ⦃e : Expr⦄,
      (wf → ∀ t ∈ Γ, t.WellFormed) → (∀ a ∈ args, a.Typed wf Γ) → build text args = .ok e → e.Typed wf Γ
  | functionCall overloads => ∀ o ∈ overloads, o.Sound
  | collectionBracket build => ∀ ⦃text : String⦄ ⦃source e : Expr⦄ ⦃body : CollectionBody⦄,
      build text source body = .ok e → e.type.WellFormed ∧
        ∀ ⦃wf : Prop⦄ ⦃Γ : List ValueType⦄ ⦃element : ValueType⦄, (wf → ∀ t ∈ Γ, t.WellFormed) →
          source.Typed wf Γ →
          source.type.element? = some element → body.Typed wf Γ element → e.Typed wf Γ
  | _ => True

theorem typed_of_converted {wf : Prop} {Γ : List ValueType} {exprs args : List Expr} {types : List ValueType}
    (h : Converted exprs types args) (ht : ∀ t ∈ types, t.WellFormed)
    (he : ∀ e ∈ exprs, e.Typed wf Γ) : ∀ a ∈ args, a.Typed wf Γ := by
  induction h with
  | nil => simp
  | cons head _ ih =>
    obtain ⟨ht, hts⟩ := List.forall_mem_cons.1 ht
    obtain ⟨he, hes⟩ := List.forall_mem_cons.1 he
    exact List.forall_mem_cons.2 ⟨Expr.typed_convertTo he (fun _ => ht) head, ih hts hes⟩

theorem typed_of_called {wf : Prop} {Γ : List ValueType} {overloads : List Overload} {contents : List Operand}
    {opening close : Extent} {result : Operand} (hΓ : wf → ∀ t ∈ Γ, t.WellFormed)
    (hsound : ∀ o ∈ overloads, o.Sound) (he : ∀ x ∈ contents, x.expr.Typed wf Γ)
    (h : Called overloads contents opening close result) : result.expr.Typed wf Γ := by
  have he : ∀ e ∈ contents.map Operand.expr, e.Typed wf Γ := by
    intro e hmem
    obtain ⟨x, hx, rfl⟩ := List.mem_map.1 hmem
    exact he x hx
  cases h with
  | intro mem passes built =>
    have hsound := hsound _ mem
    cases passes with
    | converted parameters converted =>
      exact hsound.build hΓ (typed_of_converted converted (hsound.parameters _ parameters) he) built
    | variadic => exact hsound.build hΓ he built

/-! ## Extents -/

theorem le_start_coverAll {lo : Nat} {e : Extent} {es : List Extent} (he : lo ≤ e.start)
    (hes : ∀ x ∈ es, lo ≤ x.start) : lo ≤ (e.coverAll es).start := by
  induction es generalizing e with
  | nil => exact he
  | cons x es ih =>
    obtain ⟨hx, hes⟩ := List.forall_mem_cons.1 hes
    exact ih (e := e.cover x) (by simp only [Extent.cover]; omega) hes

theorem coverAll_covers (e : Extent) (es : List Extent) :
    (e.coverAll es).start ≤ e.start ∧ e.stop ≤ (e.coverAll es).stop := by
  induction es generalizing e with
  | nil => exact ⟨le_rfl, le_rfl⟩
  | cons x es ih =>
    have := ih (e.cover x)
    simp only [Extent.cover] at this
    simp only [Extent.coverAll, List.foldl_cons, Extent.cover] at this ⊢
    omega

/-- A call starts where its opening does, and goes on at least to its close. -/
theorem called_start {overloads : List Overload} {contents : List Operand} {opening close : Extent}
    {result : Operand} (h : Called overloads contents opening close result)
    (hopening : opening.start ≤ opening.stop) (hclose : opening.start ≤ close.start)
    (hcontents : ∀ x ∈ contents, opening.start ≤ x.extent.start) :
    result.extent.start = opening.start ∧ close.stop ≤ result.extent.stop := by
  cases h with
  | intro =>
    have hargs : opening.start ≤ (if contents.isEmpty then opening.gap close
        else Operand.coverAll contents).start := by
      split
      · exact hopening
      · cases contents with
        | nil => simp at *
        | cons x contents =>
          obtain ⟨hx, hcontents⟩ := List.forall_mem_cons.1 hcontents
          refine le_start_coverAll hx fun e he => ?_
          obtain ⟨y, hy, rfl⟩ := List.mem_map.1 he
          exact hcontents y hy
    simp only [Extent.cover]
    omega

/-! ## Layers -/

/-- What waits follows one another up to an offset, the last one first. -/
def Queued : List Pending → Nat → Prop
  | [], _ => True
  | a :: below, stop => a.extent.stop ≤ stop ∧ a.extent.start < a.extent.stop ∧
      Queued below a.extent.start

namespace Queued

variable {a : Pending} {operators : List Pending} {stop stop' : Nat}

theorem mono (h : Queued operators stop) (hle : stop ≤ stop') : Queued operators stop' := by
  cases operators with
  | nil => trivial
  | cons a operators => exact ⟨h.1.trans hle, h.2⟩

theorem mem (h : Queued operators stop) (ha : a ∈ operators) :
    a.extent.start < a.extent.stop ∧ a.extent.stop ≤ stop := by
  induction operators generalizing stop with
  | nil => cases ha
  | cons b operators ih =>
    rcases List.mem_cons.1 ha with rfl | ha
    · exact ⟨h.2.1, h.1⟩
    · have := ih h.2.2 ha
      have := h.1
      have := h.2.1
      omega

theorem start_le (h : Queued (a :: operators) stop) : a.extent.start ≤ stop :=
  h.2.1.le.trans h.1

/-- What stands behind the last one stands behind all. -/
theorem stop_le {offset : Nat} (h : Queued (a :: operators) stop) (ha : a.extent.stop ≤ offset) :
    ∀ b ∈ a :: operators, b.extent.stop ≤ offset := by
  have h : Queued (a :: operators) offset := ⟨ha, h.2⟩
  exact fun b hb => (h.mem hb).2

/-- An operator takes its operands from behind everything that waits below it. -/
theorem stop_le_boundary (h : Queued operators stop) (ha : a ∈ operators) :
    a.extent.stop ≤ boundaryOf (operators.map Pending.activation) := by
  cases operators with
  | nil => cases ha
  | cons b operators => exact h.stop_le le_rfl a ha

end Queued

namespace Trace

/-- The types of parameters. -/
abbrev scope (parameters : List Parameter) : List ValueType := parameters.map Parameter.type

/-- Operands behind a bracket that has named its element are typed in the scope with it. If the source
of the bracket is still in its place, the element is one of it, and it and what lies below are in layers
of the scope without the element. -/
def Layered (wf : Prop) (parameters : List Parameter) : List Pending → List Derived → Prop
  | [], operands => ∀ x ∈ operands, x.expr.Typed wf (scope parameters)
  | a :: below, operands =>
    match a.activation.slot with
    | none => Layered wf parameters below operands
    | some slot =>
      (∀ x ∈ operands.takeWhile (a.extent.stop ≤ ·.extent.start), x.expr.Typed wf (scope parameters)) ∧
      ∀ source rest, operands.dropWhile (a.extent.stop ≤ ·.extent.start) = source :: rest →
        source.extent.stop ≤ a.extent.start →
          source.expr.type.element? = parameters[slot]?.map Parameter.type ∧
            Layered wf (parameters.take slot) below (source :: rest)

namespace Layered

variable {wf : Prop} {parameters : List Parameter} {a : Pending} {operators : List Pending}
  {xs ys rest : List Derived} {x y : Derived} {slot : Nat}

theorem unnamed_iff (ha : a.activation.slot = none) :
    Layered wf parameters (a :: operators) xs ↔ Layered wf parameters operators xs := by
  rw [Layered, ha]

theorem named_iff (ha : a.activation.slot = some slot) :
    Layered wf parameters (a :: operators) xs ↔
      (∀ x ∈ xs.takeWhile (a.extent.stop ≤ ·.extent.start), x.expr.Typed wf (scope parameters)) ∧
      ∀ source rest, xs.dropWhile (a.extent.stop ≤ ·.extent.start) = source :: rest →
        source.extent.stop ≤ a.extent.start →
          source.expr.type.element? = parameters[slot]?.map Parameter.type ∧
            Layered wf (parameters.take slot) operators (source :: rest) := by
  rw [Layered, ha]

/-- What stands behind everything that waits is typed in the whole scope. -/
theorem typed (h : Layered wf parameters operators (xs ++ rest))
    (hxs : ∀ x ∈ xs, ∀ a ∈ operators, a.extent.stop ≤ x.extent.start) :
    ∀ x ∈ xs, x.expr.Typed wf (scope parameters) := by
  induction operators with
  | nil => exact fun x hx => h x (List.mem_append_left _ hx)
  | cons a operators ih =>
    cases ha : a.activation.slot with
    | none =>
      exact ih ((unnamed_iff ha).1 h) fun x hx b hb => hxs x hx b (List.mem_cons_of_mem _ hb)
    | some slot =>
      intro x hx
      refine ((named_iff ha).1 h).1 x ?_
      rw [List.takeWhile_append_of_pos (by simpa using fun x hx => hxs x hx a List.mem_cons_self)]
      exact List.mem_append_left _ hx

/-- Typed operands behind everything that waits may take the place of others. -/
theorem replace (h : Layered wf parameters operators (xs ++ rest))
    (hxs : ∀ x ∈ xs, ∀ a ∈ operators, a.extent.stop ≤ x.extent.start)
    (hys : ∀ y ∈ ys, ∀ a ∈ operators, a.extent.stop ≤ y.extent.start)
    (htyped : ∀ y ∈ ys, y.expr.Typed wf (scope parameters)) :
    Layered wf parameters operators (ys ++ rest) := by
  induction operators with
  | nil =>
    intro y hy
    rcases List.mem_append.1 hy with hy | hy
    · exact htyped y hy
    · exact h y (List.mem_append_right _ hy)
  | cons a operators ih =>
    cases ha : a.activation.slot with
    | none =>
      refine (unnamed_iff ha).2 (ih ((unnamed_iff ha).1 h) ?_ ?_)
      · exact fun x hx b hb => hxs x hx b (List.mem_cons_of_mem _ hb)
      · exact fun y hy b hb => hys y hy b (List.mem_cons_of_mem _ hb)
    | some slot =>
      have hx : ∀ x ∈ xs, decide (a.extent.stop ≤ x.extent.start) = true := by
        simpa using fun x hx => hxs x hx a List.mem_cons_self
      have hy : ∀ y ∈ ys, decide (a.extent.stop ≤ y.extent.start) = true := by
        simpa using fun y hy => hys y hy a List.mem_cons_self
      obtain ⟨hinside, hbelow⟩ := (named_iff ha).1 h
      rw [List.takeWhile_append_of_pos hx] at hinside
      rw [List.dropWhile_append_of_pos hx] at hbelow
      refine (named_iff ha).2 ⟨?_, ?_⟩
      · rw [List.takeWhile_append_of_pos hy]
        intro y hy
        rcases List.mem_append.1 hy with hy | hy
        · exact htyped y hy
        · exact hinside y (List.mem_append_right _ hy)
      · rwa [List.dropWhile_append_of_pos hy]

/-- An operand may grow to its right, into the brackets that wait. -/
theorem extend (h : Layered wf parameters operators (x :: rest)) (hstart : y.extent.start = x.extent.start)
    (hstop : ∀ a ∈ operators, a.extent.start < y.extent.stop)
    (htyped : x.expr.Typed wf (scope parameters) → y.expr.Typed wf (scope parameters)) :
    Layered wf parameters operators (y :: rest) := by
  induction operators with
  | nil =>
    obtain ⟨hx, hrest⟩ := List.forall_mem_cons.1 h
    exact List.forall_mem_cons.2 ⟨htyped hx, hrest⟩
  | cons a operators ih =>
    cases ha : a.activation.slot with
    | none =>
      refine (unnamed_iff ha).2 (ih ((unnamed_iff ha).1 h) ?_)
      exact fun b hb => hstop b (List.mem_cons_of_mem _ hb)
    | some slot =>
      obtain ⟨hinside, hbelow⟩ := (named_iff ha).1 h
      refine (named_iff ha).2 ?_
      by_cases hx : a.extent.stop ≤ x.extent.start
      · rw [List.takeWhile_cons_of_pos (by simpa using hx)] at hinside
        rw [List.dropWhile_cons_of_pos (by simpa using hx)] at hbelow
        rw [List.takeWhile_cons_of_pos (by simpa [hstart] using hx),
          List.dropWhile_cons_of_pos (by simpa [hstart] using hx)]
        obtain ⟨hx, hinside⟩ := List.forall_mem_cons.1 hinside
        exact ⟨List.forall_mem_cons.2 ⟨htyped hx, hinside⟩, hbelow⟩
      · rw [List.takeWhile_cons_of_neg (by simpa [hstart] using hx),
          List.dropWhile_cons_of_neg (by simpa [hstart] using hx)]
        refine ⟨by simp, fun source rest heq hsource => ?_⟩
        cases heq
        have := hstop a List.mem_cons_self
        omega

/-- The source of a bracket that closes. -/
theorem source (h : Layered wf parameters (a :: operators) (x :: rest))
    (ha : a.activation.slot = some slot) (hx : x.extent.stop ≤ a.extent.start)
    (hwidth : x.extent.start < a.extent.stop) :
    x.expr.type.element? = parameters[slot]?.map Parameter.type ∧
      Layered wf (parameters.take slot) operators (x :: rest) := by
  refine ((named_iff ha).1 h).2 x rest ?_ hx
  rw [List.dropWhile_cons_of_neg (by simpa using hwidth)]

/-- A bracket names its element. -/
theorem name {p : Parameter} {accessor : Option Token} (h : Layered wf parameters operators (x :: rest))
    (hwidth : x.extent.start < a.extent.stop) (hp : x.expr.type.element? = some p.type) :
    Layered wf (parameters ++ [p])
      (⟨{ a.activation with slot := some parameters.length }, accessor⟩ :: operators)
      (x :: rest) := by
  refine (named_iff rfl).2 ⟨?_, fun source rest' heq hsource => ?_⟩
  · rw [List.takeWhile_cons_of_neg (by simpa using hwidth)]
    simp
  · rw [List.dropWhile_cons_of_neg (by simpa using hwidth)] at heq
    cases heq
    refine ⟨?_, ?_⟩
    · rw [hp, List.getElem?_append_right le_rfl]
      simp
    · rwa [List.take_left]

end Layered

/-! ## Steps -/

/-- The stacks, in layers, where everything that waits ends at an offset. -/
structure Stacked (wf : Prop) (parameters : List Parameter) (operators : List Pending) (operands : List Derived)
    (stop : Nat) : Prop where
  scope : wf → ∀ t ∈ scope parameters, t.WellFormed
  queued : Queued operators stop
  width : ∀ x ∈ operands, x.extent.start < x.extent.stop
  types : wf → ∀ x ∈ operands, x.expr.type.WellFormed
  layered : Layered wf parameters operators operands

variable {wf : Prop} {g : Grammar} {start parameters : List Parameter} {top : Pending}
  {below operators operators' : List Pending} {operands results xs rest : List Derived}
  {x y : Derived} {stop : Nat}

namespace Stacked

theorem drop (h : Stacked wf parameters (top :: below) operands stop)
    (hslot : top.activation.slot = none) : Stacked wf parameters below operands top.extent.start :=
  ⟨h.scope, h.queued.2.2, h.width, h.types, (Layered.unnamed_iff hslot).1 h.layered⟩

theorem mono {stop' : Nat} (h : Stacked wf parameters operators operands stop) (hle : stop ≤ stop') :
    Stacked wf parameters operators operands stop' :=
  ⟨h.scope, h.queued.mono hle, h.width, h.types, h.layered⟩

/-- A typed operand behind everything that waits takes the place of others. -/
theorem push (h : Stacked wf parameters operators (xs ++ rest) stop)
    (hxs : ∀ x ∈ xs, ∀ a ∈ operators, a.extent.stop ≤ x.extent.start)
    (hy : ∀ a ∈ operators, a.extent.stop ≤ y.extent.start)
    (hwidth : y.extent.start < y.extent.stop) (htyped : y.expr.Typed wf (Trace.scope parameters)) :
    Stacked wf parameters operators (y :: rest) stop where
  scope := h.scope
  queued := h.queued
  width := List.forall_mem_cons.2 ⟨hwidth, fun x hx => h.width x (List.mem_append_right _ hx)⟩
  types hwf := List.forall_mem_cons.2
    ⟨htyped.wellFormed hwf (h.scope hwf), fun x hx => h.types hwf x (List.mem_append_right _ hx)⟩
  layered := by
    have hys : ∀ z ∈ [y], ∀ a ∈ operators, a.extent.stop ≤ z.extent.start := by simpa using hy
    exact h.layered.replace hxs hys (by simpa using htyped)

/-- A typed operand behind everything that waits. -/
theorem add (h : Stacked wf parameters operators rest stop)
    (hy : ∀ a ∈ operators, a.extent.stop ≤ y.extent.start)
    (hwidth : y.extent.start < y.extent.stop) (htyped : y.expr.Typed wf (Trace.scope parameters)) :
    Stacked wf parameters operators (y :: rest) stop := by
  have h : Stacked wf parameters operators ([] ++ rest) stop := h
  exact h.push (by simp) hy hwidth htyped

/-- The operand on top is typed if it is behind everything that waits. -/
theorem pop (h : Stacked wf parameters operators (x :: rest) stop)
    (hx : ∀ a ∈ operators, a.extent.stop ≤ x.extent.start) :
    x.expr.Typed wf (Trace.scope parameters) ∧ Stacked wf parameters operators rest stop := by
  have hxs : ∀ y ∈ [x], ∀ a ∈ operators, a.extent.stop ≤ y.extent.start := by simpa using hx
  have hlayered : Layered wf parameters operators ([x] ++ rest) := h.layered
  refine ⟨hlayered.typed hxs x List.mem_cons_self, h.scope, h.queued, ?_, ?_, ?_⟩
  · exact (List.forall_mem_cons.1 h.width).2
  · exact fun hwf => (List.forall_mem_cons.1 (h.types hwf)).2
  · exact hlayered.replace hxs (List.forall_mem_nil _) (List.forall_mem_nil _)

theorem reduce (hsound : ∀ t : Token, (g.kind t.rule).Sound)
    (h : Stacked wf parameters (top :: below) operands stop) (hslot : top.activation.slot = none)
    (hr : Reduced g top below operands results) :
    Stacked wf parameters below results top.extent.start := by
  have hbelow := h.drop hslot
  cases hr with
  | inert => exact hbelow
  | @operation positions precedence build left right rest expr hk hs hb =>
    rw [hs.stack_eq, ← List.append_assoc] at hbelow
    have htop : ∀ a ∈ below, a.extent.stop ≤ top.extent.start := fun a ha => (h.queued.2.2.mem ha).2
    have hbehind : ∀ x ∈ right.reverse ++ left.reverse, ∀ a ∈ below,
        a.extent.stop ≤ x.extent.start := by
      intro x hx a ha
      rcases List.mem_append.1 hx with hx | hx
      · exact (htop a ha).trans (h.queued.2.1.le.trans (hs.after x (List.mem_reverse.1 hx)))
      · exact (h.queued.2.2.stop_le_boundary ha).trans (hs.inside x (List.mem_reverse.1 hx))
    have hargs : ∀ o ∈ Operand.arrange positions (left.map Derived.operand)
        (right.map Derived.operand), ∃ x ∈ right.reverse ++ left.reverse, x.operand = o := by
      intro o ho
      rcases mem_arrange ho with ho | ho <;> obtain ⟨x, hx, rfl⟩ := List.mem_map.1 ho <;>
        exact ⟨x, by simp [hx], rfl⟩
    refine hbelow.push hbehind (fun a ha => ?_) ?_ ?_
    · refine le_start_coverAll (htop a ha) fun e he => ?_
      obtain ⟨o, ho, rfl⟩ := List.mem_map.1 he
      obtain ⟨x, hx, rfl⟩ := hargs o ho
      exact hbehind x hx a ha
    · obtain ⟨hstart, hstop⟩ := coverAll_covers top.extent ((Operand.arrange positions
        (left.map Derived.operand) (right.map Derived.operand)).map Operand.extent)
      exact (hstart.trans_lt h.queued.2.1).trans_le hstop
    · have hbuild := hsound top.token
      rw [hk] at hbuild
      refine hbuild h.scope (fun e he => ?_) hb
      obtain ⟨o, ho, rfl⟩ := List.mem_map.1 he
      obtain ⟨x, hx, rfl⟩ := hargs o ho
      exact hbelow.layered.typed hbehind x hx

/-- Reductions keep the stacks in layers. -/
theorem foldWhile {folds : RuleKind → Bool} (hsound : ∀ t : Token, (g.kind t.rule).Sound)
    (hw : InScope g start operators parameters) (h : Stacked wf parameters operators operands stop)
    (hf : foldWhile g folds operators operands = some (operators', results)) :
    Stacked wf parameters operators' results stop :=
  (@foldWhile_induction g folds
    (fun operators operands => InScope g start operators parameters ∧
      Stacked wf parameters operators operands stop)
    (fun ⟨hw, h⟩ hr => by
      have hreduced := h.reduce hsound (hw.slot_eq_none hr.kind_ne) hr
      exact ⟨hw.drop hr.kind_ne, hreduced.mono h.queued.start_le⟩)
    _ _ _ _ ⟨hw, h⟩ hf).2

end Stacked

/-- The stacks while a bracket is unwound: what has been taken away is typed, and stands behind all that
still waits. -/
structure Unwinding (wf : Prop) (g : Grammar) (start parameters : List Parameter)
    (contents : List Derived) (operators : List Pending) (operands : List Derived) (stop : Nat) :
    Prop where
  scopes : InScope g start operators parameters
  stacked : Stacked wf parameters operators operands stop
  behind : ∀ x ∈ contents, ∀ a ∈ operators, a.extent.stop ≤ x.extent.start
  typed : ∀ x ∈ contents, x.expr.Typed wf (scope parameters)

namespace Unwinding

variable {contents : List Derived}

theorem reduce (hsound : ∀ t : Token, (g.kind t.rule).Sound)
    (h : Unwinding wf g start parameters contents (top :: below) operands stop)
    (hr : Reduced g top below operands results) :
    Unwinding wf g start parameters contents below results stop where
  scopes := h.scopes.drop hr.kind_ne
  stacked := (h.stacked.reduce hsound (h.scopes.slot_eq_none hr.kind_ne) hr).mono
    h.stacked.queued.start_le
  behind := fun x hx a ha => h.behind x hx a (List.mem_cons_of_mem _ ha)
  typed := h.typed

/-- The operand behind what waits on top is taken away. -/
theorem take (h : Unwinding wf g start parameters contents (top :: below) (x :: rest) stop)
    (hx : top.extent.stop ≤ x.extent.start) :
    Unwinding wf g start parameters (x :: contents) (top :: below) rest stop := by
  have hbehind := h.stacked.queued.stop_le hx
  obtain ⟨htyped, hrest⟩ := h.stacked.pop hbehind
  exact ⟨h.scopes, hrest, List.forall_mem_cons.2 ⟨hbehind, h.behind⟩,
    List.forall_mem_cons.2 ⟨htyped, h.typed⟩⟩

theorem drop (h : Unwinding wf g start parameters contents (top :: below) operands stop)
    (hk : ∀ build, g.kind top.rule ≠ .collectionBracket build) :
    Unwinding wf g start parameters contents below operands stop where
  scopes := h.scopes.drop hk
  stacked := (h.stacked.drop (h.scopes.slot_eq_none hk)).mono h.stacked.queued.start_le
  behind := fun x hx a ha => h.behind x hx a (List.mem_cons_of_mem _ ha)
  typed := h.typed

/-- What a close bracket unwinds stands behind the bracket that it closes. -/
theorem unwind {close : Token} {opens : List String} {delimiter : Option String} (hlinked : g.Linked)
    (hsound : ∀ t : Token, (g.kind t.rule).Sound)
    (hk : g.kind close.rule = .bracketClose opens delimiter) {u : Unwound}
    (hw : InScope g start operators parameters) (h : Stacked wf parameters operators operands stop)
    (hu : Trace.unwind g (g.linksOf close.rule) close.extent [] [] operators operands = some u) :
    Unwinding wf g start parameters u.contents (u.top :: u.operators) u.operands stop := by
  have hfirst : Unwinding wf g start parameters [] operators operands stop :=
    ⟨hw, h, by simp, by simp⟩
  obtain ⟨-, previous, contents, operands', h, hlast⟩ :=
    @unwind_induction g _ (fun _ contents _ operators operands =>
        Unwinding wf g start parameters contents operators operands stop)
      (fun h hr => h.reduce hsound hr)
      (fun hdelimiter hafter _ h => (h.take hafter).drop
        (kind_ne_of_separates hlinked ((hlinked.separates hk).1 hdelimiter)))
      _ _ _ _ _ _ hfirst hu
  rcases hlast with ⟨x, rfl, hcontents, hafter, -⟩ | ⟨-, rfl, hcontents⟩
  · rw [hcontents]
    exact h.take hafter
  · rwa [hcontents]

end Unwinding

/-! ## Runs -/

/-- The state of a parse that has read up to an offset: its parameters are numbered by the brackets that
wait, and its operands are in layers. -/
structure Layers (wf : Prop) (g : Grammar) (start : List Parameter) (stop : Nat) (s : Trace) : Prop where
  scopes : InScope g start s.operators s.parameters
  stacked : Stacked wf s.parameters s.operators s.operands stop

namespace Layers

variable {mid : Nat} {t : Token} {s s' : Trace}

theorem await (h : Stacked wf parameters operators operands mid) (ht : Ordered mid [t] stop) :
    Stacked wf parameters (⟨⟨t, none⟩, none⟩ :: operators) operands stop :=
  ⟨h.scope, ⟨ht.2.2, ht.2.1, h.queued.mono ht.1⟩, h.width, h.types,
    (Layered.unnamed_iff rfl).2 h.layered⟩

theorem named (h : Stacked wf s.parameters s.operators s.operands mid) (ht : Ordered mid [t] stop)
    (hn : Named g s t s') : Stacked wf s'.parameters s'.operators s'.operands stop := by
  cases hn with
  | @intro top below source rest build element hops hk hslot hs hbefore houtside helement =>
    rw [hops, hs] at h
    have hle := ht.1.trans (ht.2.1.le.trans ht.2.2)
    rw [hs]
    refine ⟨?_, ⟨h.queued.1.trans hle, h.queued.2⟩, h.width, h.types, ?_⟩
    · rw [scope, List.map_append]
      refine fun hwf => List.forall_mem_append.2 ⟨h.scope hwf, ?_⟩
      simpa using (h.types hwf source List.mem_cons_self).element helement
    · exact ((Layered.unnamed_iff hslot).1 h.layered).name houtside helement

theorem scope_take {slot : Nat} {p : Parameter} (hlength : parameters.length = slot + 1)
    (hp : parameters[slot]? = some p) :
    scope parameters = scope (parameters.take slot) ++ [p.type] := by
  have htake : parameters = parameters.take slot ++ [p] := by
    have hsucc := List.take_add_one (l := parameters) (i := slot)
    rwa [← hlength, List.take_length, hp] at hsucc
  rw [scope, htake]
  simp [scope, hlength]

/-- The body of a bracket is typed in the scope of the bracket, with the element if it is named. -/
theorem typed_body {contents : List Derived} {slot : Nat} {p : Parameter}
    (hlength : parameters.length = slot + 1) (hp : parameters[slot]? = some p)
    (htyped : ∀ x ∈ contents, x.expr.Typed wf (scope parameters)) :
    CollectionBody.Typed wf (scope (parameters.take slot)) p.type
      ⟨some (slot, p), contents.head?.map Derived.expr⟩ := by
  refine ⟨by simp [scope, hlength], fun b hb => ?_⟩
  obtain ⟨x, hx, rfl⟩ := Option.map_eq_some_iff.1 hb
  rw [Option.isSome_some, if_pos rfl, ← scope_take hlength hp]
  exact htyped x (List.mem_of_head? hx)

/-- The source of a collection bracket becomes a predicate over it, which reaches to the close. -/
theorem collected {u : Unwound} {source : Derived} {build : CollectionBuilder} {element : ValueType}
    {expr : Expr} {derivation : Derivation} (hsound : (RuleKind.collectionBracket build).Sound)
    (hu : Unwinding wf g start s.parameters u.contents (u.top :: u.operators)
      (source :: rest) mid)
    (ht : Ordered mid [t] stop) (hbefore : source.extent.stop ≤ u.top.extent.start)
    (helement : source.expr.type.element? = some element)
    (hbuilt : build u.top.token.text source.expr
      ⟨u.top.activation.slot.bind fun slot => s.parameters[slot]?.map (slot, ·),
        u.contents.head?.map Derived.expr⟩ = .ok expr) :
    Stacked wf (match u.top.activation.slot with
        | some slot => s.parameters.take slot
        | none => s.parameters) u.operators
      (⟨⟨expr, (source.extent.cover u.top.extent).cover t.extent⟩, derivation⟩ :: rest) stop := by
  obtain ⟨htype, htyped⟩ := hsound hbuilt
  obtain ⟨hscope, hqueued, hwidth, htypes, hlayered⟩ := hu.stacked
  obtain ⟨hsource, hwidth⟩ := List.forall_mem_cons.1 hwidth
  have hbounds : u.top.extent.start < u.top.extent.stop ∧ u.top.extent.stop ≤ t.extent.start :=
    ⟨hqueued.2.1, hqueued.1.trans ht.1⟩
  have hclose := ht.2.1
  have hstart : ((source.extent.cover u.top.extent).cover t.extent).start = source.extent.start := by
    simp only [Extent.cover]
    omega
  have hstop : t.extent.stop ≤ ((source.extent.cover u.top.extent).cover t.extent).stop := by
    simp only [Extent.cover]
    omega
  have hopen : ∀ a ∈ u.operators,
      a.extent.start < ((source.extent.cover u.top.extent).cover t.extent).stop := by
    intro a ha
    have := hqueued.2.2.mem ha
    omega
  -- The rest depends on the scope that the bracket goes back to.
  have hscoped {parameters : List Parameter} (hscope : wf → ∀ t ∈ scope parameters, t.WellFormed)
      (hlayered : Layered wf parameters u.operators (source :: rest))
      (hbody : CollectionBody.Typed wf (scope parameters) element
        ⟨u.top.activation.slot.bind fun slot => s.parameters[slot]?.map (slot, ·),
          u.contents.head?.map Derived.expr⟩) :
      Stacked wf parameters u.operators
        (⟨⟨expr, (source.extent.cover u.top.extent).cover t.extent⟩, derivation⟩ :: rest) stop := by
    refine ⟨hscope, hqueued.2.2.mono ?_, ?_, ?_, ?_⟩
    · exact (hqueued.start_le.trans ht.1).trans (ht.2.1.le.trans ht.2.2)
    · refine List.forall_mem_cons.2 ⟨hstart.trans_lt (lt_of_lt_of_le ?_ hstop), hwidth⟩
      omega
    · exact fun hwf => List.forall_mem_cons.2 ⟨htype, (List.forall_mem_cons.1 (htypes hwf)).2⟩
    · exact hlayered.extend hstart hopen fun hsource => htyped hscope hsource helement hbody
  cases hslot : u.top.activation.slot with
  | none =>
    rw [hslot] at hscoped
    refine hscoped hscope ((Layered.unnamed_iff hslot).1 hlayered) ⟨nofun, fun b hb => ?_⟩
    obtain ⟨x, hx, rfl⟩ := Option.map_eq_some_iff.1 hb
    exact hu.typed x (List.mem_of_head? hx)
  | some slot =>
    obtain ⟨hlength, -⟩ := hu.scopes.of_some hslot
    obtain ⟨p, hp⟩ : ∃ p, s.parameters[slot]? = some p :=
      ⟨_, List.getElem?_eq_getElem (by omega : slot < s.parameters.length)⟩
    obtain ⟨helement', hlayered⟩ := hlayered.source hslot hbefore (by omega)
    rw [hp, Option.map_some, helement, Option.some.injEq] at helement'
    rw [hslot, Option.bind_some, hp, Option.map_some, helement'] at hscoped
    refine hscoped (fun hwf t ht => hscope hwf t ?_) hlayered (typed_body hlength hp hu.typed)
    rw [scope_take hlength hp]
    exact List.mem_append_left _ ht

theorem closed {opens : List String} {delimiter : Option String} (hlinked : g.Linked)
    (hsound : ∀ t : Token, (g.kind t.rule).Sound) (h : Layers wf g start mid s)
    (ht : Ordered mid [t] stop) (hk : g.kind t.rule = .bracketClose opens delimiter)
    (hc : Closed g s t s') : Stacked wf s'.parameters s'.operators s'.operands stop := by
  have hunwind {u : Unwound}
      (hu : Trace.unwind g (g.linksOf t.rule) t.extent [] [] s.operators s.operands = some u) :=
    Unwinding.unwind hlinked hsound hk h.scopes h.stacked hu
  have hle := ht.1.trans (ht.2.1.le.trans ht.2.2)
  cases hc with
  | @call u overloads result hu hkind hcalled =>
    have hu := hunwind hu
    have htop := hu.stacked.queued
    have hcalled := called_of_callFunction hcalled
    have hslot := hu.scopes.slot_eq_none fun build hbuild => by rw [hkind] at hbuild; cases hbuild
    have hoverloads := hsound u.top.token
    rw [hkind] at hoverloads
    have hcontents : ∀ x ∈ u.contents.map Derived.operand, u.top.extent.start ≤ x.extent.start ∧
        x.expr.Typed wf (scope s.parameters) := by
      intro x hx
      obtain ⟨y, hy, rfl⟩ := List.mem_map.1 hx
      exact ⟨htop.2.1.le.trans (hu.behind y hy _ List.mem_cons_self), hu.typed y hy⟩
    obtain ⟨hstart, hstop⟩ := called_start hcalled htop.2.1.le (htop.start_le.trans ht.1)
      fun x hx => (hcontents x hx).1
    have htyped := typed_of_called h.stacked.scope hoverloads (fun x hx => (hcontents x hx).2) hcalled
    refine ((hu.stacked.drop hslot).mono (htop.start_le.trans hle)).add
      (fun a ha => (htop.2.2.mem ha).2.trans hstart.ge) ?_ htyped
    exact hstart.trans_lt ((htop.start_le.trans_lt (ht.1.trans_lt ht.2.1)).trans_le hstop)
  | @collection u build source rest element expr hu hkind hsingle hs hbefore helement hbuilt =>
    have hbuild := hsound u.top.token
    rw [hkind] at hbuild
    exact collected hbuild (hs ▸ hunwind hu) ht hbefore helement hbuilt
  | @bracket u inner hu hkind hsingle =>
    have hu := hunwind hu
    have htop := hu.stacked.queued
    have hinner : inner ∈ u.contents := by simp [hsingle]
    have hslot := hu.scopes.slot_eq_none hkind.2
    have hstart : ((u.top.extent.cover inner.extent).cover t.extent).start = u.top.extent.start := by
      have := hu.behind inner hinner _ List.mem_cons_self
      have := htop.1.trans ht.1
      have := htop.2.1
      simp only [Extent.cover]
      omega
    refine ((hu.stacked.drop hslot).mono (htop.start_le.trans hle)).add
      (fun a ha => (htop.2.2.mem ha).2.trans hstart.ge) ?_ (hu.typed inner hinner)
    refine hstart.trans_lt ((htop.start_le.trans_lt (ht.1.trans_lt ht.2.1)).trans_le ?_)
    exact le_max_right _ _

/-- Every token keeps the operands in layers. -/
theorem apply (hlinked : g.Linked) (hsound : ∀ t : Token, (g.kind t.rule).Sound)
    (h : Layers wf g start mid s) (ht : Ordered mid [t] stop) (ha : Applied g s t s') :
    Layers wf g start stop s' := by
  refine ⟨h.scopes.apply hlinked ha, ?_⟩
  cases ha with
  | skip => exact h.stacked.mono (ht.1.trans (ht.2.1.le.trans ht.2.2))
  | @operand build expr hk hb =>
    have hbuild := hsound t
    rw [hk] at hbuild
    refine (h.stacked.mono (ht.1.trans (ht.2.1.le.trans ht.2.2))).add
      (fun a ha => ?_) ht.2.1 (hbuild h.stacked.scope hb)
    exact (h.stacked.queued.mem ha).2.trans ht.1
  | waits _ hf =>
    obtain ⟨hp, hf⟩ := fold_eq_some.1 hf
    have hfolded := h.stacked.foldWhile hsound h.scopes hf
    rw [← hp] at hfolded
    exact await hfolded ht
  | named _ hn => exact named h.stacked ht hn
  | closed hk hc => exact closed hlinked hsound h ht hk hc

theorem applyAll {ts : List Token} (hlinked : g.Linked)
    (hsound : ∀ t : Token, (g.kind t.rule).Sound) (hscope : wf → ∀ t ∈ scope start, t.WellFormed)
    (hordered : Ordered 0 ts stop) (h : (Trace.start start).applyAll g ts = some s) :
    Layers wf g start stop s := by
  let P (read : List Token) (s : Trace) : Prop :=
    ∀ stop, Ordered 0 read stop → Layers wf g start stop s
  have hstart : P [] (Trace.start start) := fun stop _ =>
    ⟨.nil, ⟨hscope, trivial, by simp [Trace.start], by simp [Trace.start], by simp [Trace.start, Layered]⟩⟩
  have hstep (read : List Token) (s : Trace) (t : Token) (s' : Trace) (hs : P read s)
      (ha : Applied g s t s') : P (read ++ [t]) s' := by
    intro stop hordered
    obtain ⟨mid, hread, ht⟩ := Ordered.append_iff.1 hordered
    exact (hs mid hread).apply hlinked hsound ht ha
  exact applyAll_induction hstep [] hstart h stop hordered

end Layers

/-- Sound builders make typed expressions: over the parameters at the start, for every element has gone
out of scope with its bracket. -/
theorem typed_of_parse {ts : List Token} (hlinked : g.Linked)
    (hsound : ∀ t : Token, (g.kind t.rule).Sound) (hscope : wf → ∀ t ∈ scope start, t.WellFormed)
    (hordered : Ordered 0 ts stop) (h : parse g start ts = some x) : x.expr.Typed wf (scope start) := by
  obtain ⟨s, hs, h⟩ := Option.bind_eq_some_iff.1 h
  obtain ⟨s', hf, h⟩ := Option.bind_eq_some_iff.1 h
  obtain ⟨hp, hf⟩ := fold_eq_some.1 hf
  obtain ⟨hscopes, hstacked⟩ := Layers.applyAll hlinked hsound hscope hordered hs
  have hfolded := hstacked.foldWhile hsound hscopes hf
  have hscopes := (hscopes.foldWhile hf).1
  rw [foldWhile_true hf] at hfolded hscopes
  rw [sole?_eq_some h] at hfolded
  rw [hscopes.of_nil]
  exact hfolded.layered x List.mem_cons_self

end Trace

end Parlance
