import Mathlib.Data.List.Chain
import Parlance.Proofs.Precedence
import Parlance.Proofs.Soundness

/-!
# Stacks within a bracket

While a parse reads an expression within a bracket, what waits and the operands since the bracket are a
`Segment`: operands and operators alternate as they do in the text, and neither has given way to the
other where precedences do not say so. Reductions take a segment to a segment, and in the end to one
operand, or they fail; `Ensures` says that they do not fail if builders never refuse and operators behind
their operands do not wait on (`Grammar.Smooth`).
-/

namespace Parlance

/-! ## Results that may fail -/

/-- There is a result if `total` holds, and any result is as `Q` says. -/
def Ensures {α : Type} (total : Prop) (r : Option α) (Q : α → Prop) : Prop :=
  (total → r.isSome = true) ∧ ∀ a, r = some a → Q a

namespace Ensures

variable {α β : Type} {total : Prop} {r : Option α} {Q : α → Prop}

theorem some {a : α} (h : Q a) : Ensures total (some a) Q :=
  ⟨fun _ => rfl, fun _ ha => Option.some.inj ha ▸ h⟩

theorem mono {R : α → Prop} (h : Ensures total r Q) (hQ : ∀ a, Q a → R a) : Ensures total r R :=
  ⟨h.1, fun a ha => hQ a (h.2 a ha)⟩

theorem bind {f : α → Option β} {R : β → Prop} (h : Ensures total r Q)
    (hf : ∀ a, Q a → Ensures total (f a) R) : Ensures total (r.bind f) R := by
  cases r with
  | none => exact ⟨h.1, fun _ hb => nomatch hb⟩
  | some a => exact hf a (h.2 a rfl)

end Ensures

/-! ## Tokens that are read to the end -/

/-- Plain kinds whose builders never refuse; functions take any arguments. -/
def RuleKind.Willing : RuleKind → Prop
  | operand build => ∀ text scope, ∃ e, build text scope = .ok e
  | operator positions _ build => positions ∈ fixities ∧
      ∀ text args, args.length = positions.length → ∃ e, build text args = .ok e
  | functionCall overloads => ∀ o ∈ overloads, o.parameters = none ∧
      ∀ args, ∃ e, o.build args = .ok e
  | bracketOpen | bracketClose .. | listDelimiter => True
  | terminal | collectionBracket _ | collectionAccessor => False

theorem RuleKind.Total.willing {k : RuleKind} (h : k.Total) : k.Willing := by
  cases k with
  | operator positions precedence build => exact ⟨h.1, h.2.2⟩
  | terminal => exact h
  | collectionBracket build => exact h
  | collectionAccessor => exact h
  | _ => exact h

/-- If the former stands behind its operand and the latter takes an operand from its left, both have a
precedence, so that the former is reduced before the latter waits. -/
def Grammar.Releases (g : Grammar) (q o : Token) : Prop :=
  g.IsOperator [.left] q → Side.left ∈ (g.kind o.rule).positions →
    (g.kind q.rule).precedence?.isSome = true ∧ (g.kind o.rule).precedence?.isSome = true

/-- Tokens whose builders never refuse, with no operator behind its operand that would wait on below the
next one. -/
structure Grammar.Smooth (g : Grammar) (ts : List Token) : Prop where
  willing : ∀ t ∈ ts, (g.kind t.rule).Willing
  releases : ts.IsChain g.Releases

namespace Grammar.Smooth

variable {g : Grammar} {ts us : List Token} {t q o : Token}

theorem head (h : g.Smooth (t :: ts)) : (g.kind t.rule).Willing := h.willing t List.mem_cons_self

theorem tail (h : g.Smooth (t :: ts)) : g.Smooth ts :=
  ⟨fun u hu => h.willing u (List.mem_cons_of_mem t hu), h.releases.of_cons⟩

theorem left (h : g.Smooth (ts ++ us)) : g.Smooth ts :=
  ⟨fun u hu => h.willing u (List.mem_append_left us hu), h.releases.left_of_append⟩

theorem right (h : g.Smooth (ts ++ us)) : g.Smooth us :=
  ⟨fun u hu => h.willing u (List.mem_append_right ts hu), h.releases.right_of_append⟩

theorem between (h : g.Smooth (ts ++ o :: us)) (hq : ts.getLast? = some q) : g.Releases q o :=
  (List.isChain_append.1 h.releases).2.2 q hq o rfl

/-- Where all operators have a precedence none waits on. -/
theorem of_total (h : ∀ t ∈ ts, (g.kind t.rule).Total) : g.Smooth ts := by
  refine ⟨fun t ht => (h t ht).willing, ?_⟩
  have hranked {t : Token} {positions : List Side} (ht : (g.kind t.rule).Total)
      (hpositions : positions = (g.kind t.rule).positions) (hne : positions ≠ []) :
      (g.kind t.rule).precedence?.isSome = true := by
    subst hpositions
    cases hk : g.kind t.rule with
    | operator positions precedence build =>
      rw [hk] at ht
      exact ht.2.1
    | _ => simp [hk, RuleKind.positions] at hne
  induction ts with
  | nil => exact .nil
  | cons q ts ih =>
    obtain ⟨hq, hts⟩ := List.forall_mem_cons.1 h
    refine List.isChain_cons.2 ⟨fun o ho hop hleft => ?_, ih hts⟩
    obtain ⟨precedence, build, hk⟩ := hop
    exact ⟨hranked hq rfl (by simp [hk, RuleKind.positions]),
      hranked (hts o (List.mem_of_mem_head? ho)) rfl (List.ne_nil_of_mem hleft)⟩

end Grammar.Smooth

/-! ## Operators in order -/

theorem Grammar.IsOperator.unique {g : Grammar} {p q : List Side} {t : Token}
    (h : g.IsOperator p t) (h' : g.IsOperator q t) : p = q := by
  obtain ⟨_, _, h⟩ := h
  obtain ⟨_, _, h'⟩ := h'
  exact (RuleKind.operator.inj (h.symm.trans h')).1

namespace Trace

/-- What has not given way to an operator that takes an operand from its left: the operator on top does
not bind it, and all that has been reduced into the operand does. An operator behind its operand waits
on only if the tokens are not smooth. -/
structure Stays (g : Grammar) (total : Prop) (operators : List Pending) (operands : List Derived)
    (o : Token) : Prop where
  ranked : ∀ q ∈ operators.head?, g.IsOperator [.left] q.token → ¬ total
  takes : ∀ q ∈ operators.head?, ¬ g.Binds q.token o
  keeps : (∀ q ∈ operators.head?, ¬ g.IsOperator [.left] q.token) →
    ∀ x ∈ operands.head?, ∀ q ∈ x.derivation.rightSpine, g.Binds q o

/-- What waits and the operands since an offset, up to an offset; an operand or an operator behind one
stands last, or else an operator that takes an operand from its right. -/
inductive Segment (g : Grammar) (total : Prop) (start : Nat) :
    Bool → List Pending → List Derived → Nat → Prop
  | start : Segment g total start false [] [] start
  | operator {a : Pending} {positions : List Side} {operators : List Pending}
      {operands : List Derived} {stop : Nat}
      (below : Segment g total start (positions.contains .left) operators operands stop)
      (fixity : positions ∈ fixities) (kind : g.IsOperator positions a.token)
      (place : stop ≤ a.extent.start) (width : a.extent.start < a.extent.stop)
      (willing : total → (g.kind a.rule).Willing)
      (stays : Side.left ∈ positions → Stays g total operators operands a.token) :
      Segment g total start (!positions.contains .right) (a :: operators) operands a.extent.stop
  | operand {x : Derived} {operators : List Pending} {operands : List Derived} {stop : Nat}
      (below : Segment g total start false operators operands stop)
      (place : stop ≤ x.extent.start) (width : x.extent.start < x.extent.stop)
      (obeys : x.derivation.Obeys g)
      (takes : ∀ q ∈ operators.head?, ∀ o ∈ x.derivation.leftSpine, ¬ g.Binds q.token o) :
      Segment g total start true operators (x :: operands) x.extent.stop

/-- Stacks below a segment that starts at an offset: a bracket or a delimiter waits on top, or nothing,
and operands start before. -/
structure Base (g : Grammar) (start : Nat) (operators : List Pending) (operands : List Derived) :
    Prop where
  kind : ∀ a ∈ operators.head?, (g.kind a.rule).precedence? = none
  boundary : boundaryOf (operators.map Pending.activation) ≤ start
  operands : ∀ x ∈ operands.head?, x.extent.start < start

namespace Segment

variable {g : Grammar} {total : Prop} {start stop : Nat} {filled : Bool}
  {a : Pending} {operators below : List Pending} {x : Derived} {operands rest : List Derived}

theorem le (h : Segment g total start filled operators operands stop) : start ≤ stop := by
  induction h with
  | start => exact le_rfl
  | operator _ _ _ place width _ _ ih => omega
  | operand _ place width _ _ ih => omega

/-- The operand on top of a segment stands before its end. -/
theorem head_le (h : Segment g total start filled operators operands stop) :
    ∀ x ∈ operands.head?, x.extent.start < x.extent.stop ∧ x.extent.stop ≤ stop := by
  induction h with
  | start => simp
  | operator _ _ _ place width _ _ ih =>
    intro x hx
    have := ih x hx
    omega
  | operand _ _ width =>
    intro x hx
    cases hx
    exact ⟨width, le_rfl⟩

theorem operands_ne_nil (h : Segment g total start filled operators operands stop)
    (hfilled : filled = true) : operands ≠ [] := by
  induction h with
  | start => cases hfilled
  | @operator a positions operators operands stop below fixity _ _ _ _ _ ih =>
    refine ih ?_
    simp only [fixities, List.mem_cons, List.not_mem_nil, or_false] at fixity
    rcases fixity with rfl | rfl | rfl
    · cases hfilled
    · rfl
    · rfl
  | operand => simp

/-- The operators of a segment, and that their builders never refuse if they need not. -/
theorem kinds (h : Segment g total start filled operators operands stop) :
    ∀ a ∈ operators, (∃ positions ∈ fixities, g.IsOperator positions a.token) ∧
      (total → (g.kind a.rule).Willing) := by
  induction h with
  | start => simp
  | operator _ fixity kind _ _ willing _ ih =>
    exact List.forall_mem_cons.2 ⟨⟨⟨_, fixity, kind⟩, willing⟩, ih⟩
  | operand _ _ _ _ _ ih => exact ih

/-- An operator on top that still lacks its right operand takes one from its right. -/
theorem not_trailing (h : Segment g total start false operators operands stop) :
    ∀ q ∈ operators.head?, ¬ g.IsOperator [.left] q.token := by
  generalize hf : false = filled at h
  cases h with
  | start => simp
  | @operator a positions operators operands stop below fixity kind =>
    intro q hq hleft
    cases hq
    obtain rfl := kind.unique hleft
    cases hf
  | operand => cases hf

/-- Below an operator of smooth tokens no operator behind its operand waits. -/
theorem next_not_trailing (h : Segment g total start filled (a :: operators) operands stop)
    (ht : total) : ∀ q ∈ operators.head?, ¬ g.IsOperator [.left] q.token := by
  generalize hops : a :: operators = waiting at h
  induction h with
  | start => cases hops
  | @operator a positions operators operands stop below _ _ _ _ _ stays =>
    cases hops
    by_cases hleft : Side.left ∈ positions
    · exact fun q hq hop => (stays hleft).ranked q hq hop ht
    · rw [show positions.contains .left = false by simpa using hleft] at below
      exact below.not_trailing
  | operand _ _ _ _ _ ih => exact ih hops

/-- Below the operand on top is a segment that lacks it, unless an operator behind it waits. -/
theorem below_operand (h : Segment g total start true operators (x :: operands) stop)
    (htop : ∀ q ∈ operators.head?, ¬ g.IsOperator [.left] q.token) :
    ∃ mid, Segment g total start false operators operands mid ∧ mid ≤ x.extent.start ∧
      x.extent.start < x.extent.stop ∧ x.extent.stop = stop ∧ x.derivation.Obeys g ∧
      ∀ q ∈ operators.head?, ∀ o ∈ x.derivation.leftSpine, ¬ g.Binds q.token o := by
  generalize hf : true = filled at h
  cases h with
  | @operator a positions operators operands stop below fixity kind =>
    simp only [fixities, List.mem_cons, List.not_mem_nil, or_false] at fixity
    rcases fixity with rfl | rfl | rfl
    · cases hf
    · exact absurd kind (htop a rfl)
    · cases hf
  | @operand x operators operands stop below place width obeys takes =>
    exact ⟨stop, below, place, width, rfl, obeys, takes⟩

variable {lower : List Pending} {others : List Derived}

/-- Operands on top of a segment and its base start before the end of the segment. -/
theorem head_lt (h : Segment g total start filled operators operands stop)
    (hbase : Base g start lower others) :
    ∀ x ∈ (operands ++ others).head?, x.extent.start < stop := by
  cases operands with
  | nil =>
    intro x hx
    exact (hbase.operands x hx).trans_le h.le
  | cons y operands =>
    intro x hx
    have := h.head_le x hx
    omega

/-- What waits on top of a segment and its base ends where the segment does, if an operand is lacking. -/
theorem boundary_le (h : Segment g total start false operators operands stop)
    (hbase : Base g start lower others) :
    boundaryOf ((operators ++ lower).map Pending.activation) ≤ stop := by
  generalize hf : false = filled at h
  cases h with
  | start => exact hbase.boundary
  | operator => exact le_rfl
  | operand => cases hf

end Segment

/-! ## Reductions -/

/-- An operator whose builder does not refuse is reduced if it finds its operands. -/
theorem reduce_isSome {g : Grammar} {a : Pending} {below : List Pending} {positions : List Side}
    {operands rest : List Derived} (left right : List Derived) (hop : g.IsOperator positions a.token)
    (hwilling : (g.kind a.rule).Willing)
    (hs : Split Derived.extent a.extent positions (boundaryOf (below.map Pending.activation)) operands
      left right rest) : (reduce g a below operands).isSome = true := by
  obtain ⟨precedence, build, hk⟩ := hop
  have hbuild : ∀ text args, args.length = positions.length → ∃ e, build text args = .ok e := by
    rw [show g.kind a.rule = _ from hk] at hwilling
    exact hwilling.2
  have hleft : (left.map Derived.operand).length = positions.count .left := by
    simpa using hs.length_left
  have hright : (right.map Derived.operand).length = positions.count .right := by
    simpa using hs.length_right
  obtain ⟨e, he⟩ := hbuild a.token.text
    ((Operand.arrange positions (left.map Derived.operand) (right.map Derived.operand)).map
      Operand.expr) (by simpa using (arrange_spec hleft hright).1)
  rw [reduce_eq_some.2 (.operation hk hs he)]
  rfl

/-- What a reduction makes of the operands of an operator of a segment. -/
theorem joined_of_reduce {g : Grammar} {a : Pending} {below : List Pending} {positions : List Side}
    {operands results : List Derived} (hop : g.IsOperator positions a.token)
    (hfix : positions ∈ fixities) (hr : reduce g a below operands = some results) :
    Joined g a (boundaryOf (below.map Pending.activation)) operands results := by
  obtain ⟨precedence, build, hk⟩ := hop
  have hk' : g.kind a.rule = .operator positions precedence build := hk
  have hplain : (g.kind a.rule).Plain := by rwa [hk']
  exact joined_of_reduced hplain (by rw [hk']; rfl) (reduce_eq_some.1 hr)

namespace Segment

variable {g : Grammar} {total : Prop} {start stop : Nat} {a : Pending}
  {operators lower : List Pending} {operands others : List Derived}

/-- What a reduction leaves: a segment with one operand for the operator and those that it took, at
whose right edge is no operator but this one and those of the operand to its right. -/
structure Folded (g : Grammar) (total : Prop) (start stop : Nat) (a : Pending)
    (operators : List Pending) (operands others : List Derived) (x : Derived)
    (rest : List Derived) : Prop where
  segment : Segment g total start true operators (x :: rest) stop
  edge : ∀ q ∈ x.derivation.rightSpine, ¬ g.IsOperator [.left] a.token ∧
    (q = a.token ∨ ∃ y ∈ operands.head?, q ∈ y.derivation.rightSpine)

/-- An operand that starts behind what waits has no operator behind it that waits. -/
theorem not_trailing_of_boundary {x : Derived} {rest : List Derived}
    (h : Segment g total start true operators (x :: rest) stop)
    (hboundary : boundaryOf ((operators ++ lower).map Pending.activation) ≤ x.extent.start) :
    ∀ q ∈ operators.head?, ¬ g.IsOperator [.left] q.token := by
  generalize hf : true = filled at h
  generalize hx : x :: rest = operands at h
  cases h with
  | start => cases hf
  | @operator a _ _ _ mid below _ _ place width =>
    have hb : a.extent.stop ≤ x.extent.start := hboundary
    have := below.head_le x (by simp [← hx])
    omega
  | operand below => exact below.not_trailing

/-- The reduction of an operator behind its operand. -/
theorem reduce_trail (below : Segment g total start true operators operands stop)
    (hbase : Base g start lower others) (kind : g.IsOperator [.left] a.token)
    (place : stop ≤ a.extent.start) (width : a.extent.start < a.extent.stop)
    (willing : total → (g.kind a.rule).Willing) (stays : Stays g total operators operands a.token) :
    Ensures total (Trace.reduce g a (operators ++ lower) (operands ++ others)) fun results =>
      ∃ x rest, results = x :: (rest ++ others) ∧
        Folded g total start a.extent.stop a operators operands others x rest := by
  obtain ⟨l, rest, rfl⟩ := List.exists_cons_of_ne_nil (below.operands_ne_nil rfl)
  have hl := below.head_le l rfl
  constructor
  · intro ht
    obtain ⟨mid, hmid, hplace, -⟩ := below.below_operand fun q hq hleft => stays.ranked q hq hleft ht
    have hboundary := (hmid.boundary_le hbase).trans hplace
    refine reduce_isSome [l] [] kind (willing ht) ⟨rfl, rfl, rfl, by simp, ?_, by simpa using hboundary⟩
    simp only [List.reverse_singleton, List.singleton_append, List.head?_cons, Option.mem_some_iff,
      forall_eq']
    omega
  · intro results hr
    have hjoined := joined_of_reduce kind (by simp [fixities]) hr
    generalize hs : l :: rest ++ others = stack at hjoined
    cases hjoined with
    | lead operator => cases kind.unique operator
    | join operator => cases kind.unique operator
    | @trail x tail expr operator before inside =>
      cases hs
      obtain ⟨mid, hmid, hplace, -, -, obeys, takes⟩ :=
        below.below_operand (not_trailing_of_boundary below inside)
      have hextent : a.extent.cover l.extent = ⟨l.extent.start, a.extent.stop⟩ := by
        simp only [Extent.cover, Extent.mk.injEq]
        omega
      have hobeys : (Derivation.operation a.token [l.derivation] []).Obeys g := by
        refine .operation (by simpa using obeys) (by simp) ?_ (by simp)
        intro y hy q hq
        obtain rfl := List.singleton_inj.1 hy
        exact stays.keeps (not_trailing_of_boundary below inside) l rfl q hq
      rw [hextent]
      refine ⟨_, _, rfl, .operand hmid hplace ?_ hobeys ?_, by simp [Derivation.rightSpine]⟩
      · exact (by omega : l.extent.start < a.extent.stop)
      · intro q hq
        exact List.forall_mem_cons.2 ⟨stays.takes q hq, takes q hq⟩

/-- The reduction of an operator before its operand. -/
theorem reduce_lead {y : Derived} (below : Segment g total start false operators operands stop)
    (hbase : Base g start lower others) (kind : g.IsOperator [.right] a.token)
    (place : stop ≤ a.extent.start) (width : a.extent.start < a.extent.stop)
    (willing : total → (g.kind a.rule).Willing) (after : a.extent.stop ≤ y.extent.start)
    (hwidth : y.extent.start < y.extent.stop) (obeys : y.derivation.Obeys g)
    (takes : ∀ o ∈ y.derivation.leftSpine, ¬ g.Binds a.token o) :
    Ensures total (Trace.reduce g a (operators ++ lower) (y :: operands ++ others)) fun results =>
      ∃ x rest, results = x :: (rest ++ others) ∧
        Folded g total start y.extent.stop a operators (y :: operands) others x rest := by
  constructor
  · intro ht
    refine reduce_isSome [] [y] kind (willing ht) ⟨rfl, rfl, rfl, by simpa using after, ?_, by simp⟩
    intro x hx
    have := below.head_lt hbase x hx
    omega
  · intro results hr
    have hjoined := joined_of_reduce kind (by simp [fixities]) hr
    generalize hs : y :: operands ++ others = stack at hjoined
    cases hjoined with
    | trail operator => cases kind.unique operator
    | join operator => cases kind.unique operator
    | @lead x tail expr operator after next =>
      cases hs
      have hextent : a.extent.cover y.extent = ⟨a.extent.start, y.extent.stop⟩ := by
        simp only [Extent.cover, Extent.mk.injEq]
        omega
      have hobeys : (Derivation.operation a.token [] [y.derivation]).Obeys g := by
        refine .operation (by simp) (by simpa using obeys) (by simp) ?_
        intro x hx
        obtain rfl := List.singleton_inj.1 hx
        exact takes
      rw [hextent]
      refine ⟨_, _, rfl, .operand below place ?_ hobeys ?_, ?_⟩
      · exact (by omega : a.extent.start < y.extent.stop)
      · simp [Derivation.leftSpine]
      · intro q hq
        refine ⟨fun hleft => (by cases kind.unique hleft), ?_⟩
        rcases List.mem_cons.1 hq with rfl | hq
        · exact .inl rfl
        · exact .inr ⟨y, rfl, hq⟩

/-- The reduction of an operator between two operands. -/
theorem reduce_join {y : Derived} (below : Segment g total start true operators operands stop)
    (hbase : Base g start lower others) (kind : g.IsOperator [.left, .right] a.token)
    (place : stop ≤ a.extent.start) (width : a.extent.start < a.extent.stop)
    (willing : total → (g.kind a.rule).Willing) (stays : Stays g total operators operands a.token)
    (after : a.extent.stop ≤ y.extent.start) (hwidth : y.extent.start < y.extent.stop)
    (obeys : y.derivation.Obeys g) (takes : ∀ o ∈ y.derivation.leftSpine, ¬ g.Binds a.token o) :
    Ensures total (Trace.reduce g a (operators ++ lower) (y :: operands ++ others)) fun results =>
      ∃ x rest, results = x :: (rest ++ others) ∧
        Folded g total start y.extent.stop a operators (y :: operands) others x rest := by
  obtain ⟨l, rest, rfl⟩ := List.exists_cons_of_ne_nil (below.operands_ne_nil rfl)
  have hl := below.head_le l rfl
  constructor
  · intro ht
    obtain ⟨mid, hmid, hplace, -⟩ := below.below_operand fun q hq hleft => stays.ranked q hq hleft ht
    have hboundary := (hmid.boundary_le hbase).trans hplace
    refine reduce_isSome [l] [y] kind (willing ht)
      ⟨rfl, rfl, rfl, by simpa using after, ?_, by simpa using hboundary⟩
    simp only [List.reverse_singleton, List.singleton_append, List.head?_cons, Option.mem_some_iff,
      forall_eq']
    omega
  · intro results hr
    have hjoined := joined_of_reduce kind (by simp [fixities]) hr
    generalize hs : y :: l :: rest ++ others = stack at hjoined
    cases hjoined with
    | lead operator => cases kind.unique operator
    | trail operator => cases kind.unique operator
    | @join x _ tail expr operator after before inside =>
      cases hs
      obtain ⟨mid, hmid, hplace, -, -, hobeys, htakes⟩ :=
        below.below_operand (not_trailing_of_boundary below inside)
      have hextent : (a.extent.cover l.extent).cover y.extent =
          ⟨l.extent.start, y.extent.stop⟩ := by
        simp only [Extent.cover, Extent.mk.injEq]
        omega
      have hobeys : (Derivation.operation a.token [l.derivation] [y.derivation]).Obeys g := by
        refine .operation (by simpa using hobeys) (by simpa using obeys) ?_ ?_
        · intro x hx q hq
          obtain rfl := List.singleton_inj.1 hx
          exact stays.keeps (not_trailing_of_boundary below inside) l rfl q hq
        · intro x hx
          obtain rfl := List.singleton_inj.1 hx
          exact takes
      rw [hextent]
      refine ⟨_, _, rfl, .operand hmid hplace ?_ hobeys ?_, ?_⟩
      · exact (by omega : l.extent.start < y.extent.stop)
      · intro q hq
        exact List.forall_mem_cons.2 ⟨stays.takes q hq, htakes q hq⟩
      · intro q hq
        refine ⟨fun hleft => (by cases kind.unique hleft), ?_⟩
        rcases List.mem_cons.1 hq with rfl | hq
        · exact .inl rfl
        · exact .inr ⟨y, rfl, hq⟩

/-- An operator that waits on top of a segment is reduced to an operand of it. -/
theorem reduce (h : Segment g total start true (a :: operators) operands stop)
    (hbase : Base g start lower others) :
    Ensures total (Trace.reduce g a (operators ++ lower) (operands ++ others)) fun results =>
      ∃ x rest, results = x :: (rest ++ others) ∧
        Folded g total start stop a operators operands others x rest := by
  generalize hf : true = filled at h
  cases h with
  | @operator _ positions _ _ mid below fixity kind place width willing stays =>
    simp only [fixities, List.mem_cons, List.not_mem_nil, or_false] at fixity
    rcases fixity with rfl | rfl | rfl
    · cases hf
    · exact reduce_trail below hbase kind place width willing (stays (by simp))
    · cases hf
  | @operand y _ rest mid below place width obeys takes =>
    generalize hf' : false = filled at below
    cases below with
    | @operator _ positions _ _ mid below fixity kind place' width' willing stays =>
      simp only [fixities, List.mem_cons, List.not_mem_nil, or_false] at fixity
      rcases fixity with rfl | rfl | rfl
      · exact reduce_lead below hbase kind place' width' willing place width obeys (takes a rfl)
      · cases hf'
      · exact reduce_join below hbase kind place' width' willing (stays (by simp)) place width obeys
          (takes a rfl)
    | operand => cases hf'

/-- What binds at least as tightly yields to an operator. -/
theorem yieldsTo_of_binds {q o : Token} {p : Int} (ho : (g.kind o.rule).precedence? = some p)
    (h : g.Binds q o) : yieldsTo p (g.kind q.rule) = true := by
  obtain ⟨r, p', hq, ho', hle⟩ := h
  obtain rfl := Option.some.inj (ho.symm.trans ho')
  simp [yieldsTo, hq, hle]

/-- What yields to an operator binds at least as tightly, unless it stands behind its operand. -/
theorem binds_of_yieldsTo {q o : Token} {p : Int} {positions : List Side}
    (ho : (g.kind o.rule).precedence? = some p) (hop : g.IsOperator positions q)
    (hfix : positions ∈ fixities) (hleft : ¬ g.IsOperator [.left] q)
    (h : yieldsTo p (g.kind q.rule) = true) : g.Binds q o := by
  obtain ⟨precedence, build, hk⟩ := hop
  have hright : positions.contains .right = true := by
    simp only [fixities, List.mem_cons, List.not_mem_nil, or_false] at hfix
    rcases hfix with rfl | rfl | rfl
    · rfl
    · exact absurd ⟨precedence, build, hk⟩ hleft
    · rfl
  cases precedence with
  | none => simp [yieldsTo, hk, RuleKind.precedence?] at h
  | some r =>
    have hle : r ≤ p := by
      simp only [yieldsTo, hk, RuleKind.precedence?, RuleKind.positions, hright, Option.any_some,
        Bool.not_true, Bool.or_false, decide_eq_true_eq] at h
      exact h
    exact ⟨r, p, by rw [hk]; rfl, ho, hle⟩

/-- Before an operator takes its left operand, what yields to it is reduced. -/
theorem foldWhile {o : Token} {p : Int} (ho : (g.kind o.rule).precedence? = some p)
    (h : Segment g total start true operators operands stop) (hbase : Base g start lower others)
    (hreleases : total → ∀ q ∈ operators.head?, g.IsOperator [.left] q.token →
      (g.kind q.rule).precedence?.isSome = true)
    (hedge : (∀ q ∈ operators.head?, ¬ g.IsOperator [.left] q.token) →
      ∀ x ∈ operands.head?, ∀ q ∈ x.derivation.rightSpine, g.Binds q o) :
    Ensures total (Trace.foldWhile g (yieldsTo p) (operators ++ lower) (operands ++ others)) fun r =>
      ∃ ops xs, r = (ops ++ lower, xs ++ others) ∧ Segment g total start true ops xs stop ∧
        Stays g total ops xs o := by
  induction operators generalizing operands with
  | nil =>
    have hstop : Trace.foldWhile g (yieldsTo p) lower (operands ++ others) =
        some (lower, operands ++ others) := by
      cases lower with
      | nil => rfl
      | cons b lower =>
        have hb : yieldsTo p (g.kind b.rule) = false := by simp [yieldsTo, hbase.kind b rfl]
        simp [Trace.foldWhile, hb]
    rw [List.nil_append, hstop]
    exact .some ⟨[], operands, rfl, h, by simp, by simp, hedge⟩
  | cons a operators ih =>
    obtain ⟨⟨positions, hfix, hop⟩, -⟩ := h.kinds a List.mem_cons_self
    simp only [List.cons_append, Trace.foldWhile]
    split
    · rename_i hyields
      refine (h.reduce hbase).bind ?_
      rintro _ ⟨x, rest, rfl, hfolded⟩
      refine ih hfolded.segment (fun ht q hq hop => absurd hop (h.next_not_trailing ht q hq))
        fun _ y hy q hq => ?_
      cases hy
      obtain ⟨hleft, hq⟩ := hfolded.edge q hq
      rcases hq with rfl | ⟨y, hy, hq⟩
      · exact binds_of_yieldsTo ho hop hfix hleft hyields
      · exact hedge (by simpa using hleft) y hy q hq
    · rename_i hyields
      refine .some ⟨a :: operators, operands, rfl, h, ?_, ?_, hedge⟩
      · rintro q hq ⟨precedence, build, hk⟩ htotal
        cases hq
        refine hyields ?_
        have hranked := hreleases htotal a rfl ⟨precedence, build, hk⟩
        rw [show g.kind a.rule = _ from hk] at hranked ⊢
        obtain ⟨r, rfl⟩ := Option.isSome_iff_exists.1 hranked
        simp [yieldsTo, RuleKind.precedence?, RuleKind.positions]
      · intro q hq hbinds
        cases hq
        exact hyields (yieldsTo_of_binds ho hbinds)

end Segment

/-! ## Reducing a whole segment -/

/-- Reduces operators above others, the top first. -/
def reduceAll (g : Grammar) : List Pending → List Pending → List Derived → Option (List Derived)
  | [], _, operands => some operands
  | a :: operators, lower, operands => do
    reduceAll g operators lower (← reduce g a (operators ++ lower) operands)

theorem reduceAll_append (g : Grammar) (operators others lower : List Pending)
    (operands : List Derived) :
    reduceAll g (operators ++ others) lower operands =
      (reduceAll g operators (others ++ lower) operands).bind (reduceAll g others lower) := by
  induction operators generalizing operands with
  | nil => rfl
  | cons a operators ih =>
    simp only [List.cons_append, reduceAll, List.append_assoc, Option.bind_eq_bind]
    cases reduce g a (operators ++ (others ++ lower)) operands with
    | none => rfl
    | some results => exact ih results

theorem foldWhile_append {g : Grammar} {folds : RuleKind → Bool} {operators lower : List Pending}
    {operands : List Derived} (hfolds : ∀ a ∈ operators, folds (g.kind a.rule) = true) :
    foldWhile g folds (operators ++ lower) operands =
      (reduceAll g operators lower operands).bind (foldWhile g folds lower) := by
  induction operators generalizing operands with
  | nil => rfl
  | cons a operators ih =>
    simp only [List.cons_append, foldWhile, hfolds a List.mem_cons_self, if_true, reduceAll,
      Option.bind_eq_bind]
    cases reduce g a (operators ++ lower) operands with
    | none => rfl
    | some results => exact ih fun b hb => hfolds b (List.mem_cons_of_mem _ hb)

theorem unwind_append {g : Grammar} {links : BracketLinks} {previous : Extent}
    {contents operands : List Derived} {delimiters : List Token} {operators lower : List Pending}
    (hlinks : ∀ a ∈ operators, links.opens.contains a.rule = false ∧
      links.delimiter ≠ some a.rule) :
    unwind g links previous contents delimiters (operators ++ lower) operands =
      (reduceAll g operators lower operands).bind
        (unwind g links previous contents delimiters lower) := by
  induction operators generalizing operands with
  | nil => rfl
  | cons a operators ih =>
    obtain ⟨hopens, hdelimiter⟩ := hlinks a List.mem_cons_self
    simp only [List.cons_append, unwind, hopens, hdelimiter, reduceAll, Option.bind_eq_bind,
      Bool.false_eq_true, if_false]
    cases reduce g a (operators ++ lower) operands with
    | none => rfl
    | some results => exact ih fun b hb => hlinks b (List.mem_cons_of_mem _ hb)

/-- An operand that holds a whole segment. -/
structure Whole (g : Grammar) (start stop : Nat) (x : Derived) : Prop where
  start_le : start ≤ x.extent.start
  width : x.extent.start < x.extent.stop
  stop_eq : x.extent.stop = stop
  obeys : x.derivation.Obeys g

/-- A segment is reduced to one operand. -/
theorem Segment.reduceAll {g : Grammar} {total : Prop} {start stop : Nat}
    {operators lower : List Pending} {operands others : List Derived}
    (h : Segment g total start true operators operands stop) (hbase : Base g start lower others) :
    Ensures total (Trace.reduceAll g operators lower (operands ++ others)) fun results =>
      ∃ x, results = x :: others ∧ Whole g start stop x := by
  induction operators generalizing operands with
  | nil =>
    obtain ⟨x, rest, rfl⟩ := List.exists_cons_of_ne_nil (h.operands_ne_nil rfl)
    obtain ⟨mid, hmid, hplace, hwidth, hstop, hobeys, -⟩ := h.below_operand (by simp)
    generalize hf : false = filled at hmid
    cases hmid with
    | start => exact .some ⟨x, rfl, hplace, hwidth, hstop, hobeys⟩
    | operand => cases hf
  | cons a operators ih =>
    refine (h.reduce hbase).bind ?_
    rintro _ ⟨x, rest, rfl, hfolded⟩
    exact ih hfolded.segment

end Trace

end Parlance
