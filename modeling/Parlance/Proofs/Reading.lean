import Parlance.Proofs.Segment
import Mathlib.Data.List.Forall2

/-!
# Reading the tokens of a derivation

A parse that reads the tokens of a derivation that follows the rules leaves a segment of its stacks for
them, whatever is below, or fails (`Reads`); the induction is on the derivation. If the derivation goes
by precedences, the segment is what the derivation unfolds to, so that it is the one that the parse
finds.
-/

namespace Parlance

namespace Trace

variable {g : Grammar} {total : Prop} {start stop : Nat} {d : Derivation}
  {operators lower : List Pending} {operands others : List Derived}

/-! ## Stacks that stand for a derivation -/

/-- The stacks before the operators at the right edge of a derivation are reduced. -/
inductive Unfolds (g : Grammar) : Derivation → List Pending → List Derived → Prop
  | whole (x : Derived) : Unfolds g x.derivation [] [x]
  | lead {a : Pending} {right : Derivation} {operators : List Pending} {operands : List Derived}
      (kind : g.IsOperator [.right] a.token) (h : Unfolds g right operators operands) :
      Unfolds g (.operation a.token [] [right]) (operators ++ [a]) operands
  | trail {a : Pending} (kind : g.IsOperator [.left] a.token) (x : Derived) :
      Unfolds g (.operation a.token [x.derivation] []) [a] [x]
  | join {a : Pending} {right : Derivation} {operators : List Pending} {operands : List Derived}
      (kind : g.IsOperator [.left, .right] a.token) (x : Derived)
      (h : Unfolds g right operators operands) :
      Unfolds g (.operation a.token [x.derivation] [right]) (operators ++ [a]) (operands ++ [x])

namespace Unfolds

theorem mem (h : Unfolds g d operators operands) : ∀ a ∈ operators, a.token ∈ d.tokens ∧
    ∃ positions ∈ fixities, g.IsOperator positions a.token ∧
      (¬ g.IsOperator [.left] a.token → a.token ∈ d.rightSpine) := by
  induction h with
  | whole x => simp
  | @lead a right operators operands kind h ih =>
    intro b hb
    rcases List.mem_append.1 hb with hb | hb
    · obtain ⟨htokens, positions, hfix, hop, hspine⟩ := ih b hb
      exact ⟨by simp [htokens], positions, hfix, hop, fun hleft => List.mem_cons_of_mem _ (hspine hleft)⟩
    · obtain rfl := List.mem_singleton.1 hb
      exact ⟨by simp, _, by simp [fixities], kind, fun _ => List.mem_cons_self⟩
  | @trail a kind x =>
    intro b hb
    obtain rfl := List.mem_singleton.1 hb
    exact ⟨by simp, _, by simp [fixities], kind, fun hleft => absurd kind hleft⟩
  | @join a right operators operands kind x h ih =>
    intro b hb
    rcases List.mem_append.1 hb with hb | hb
    · obtain ⟨htokens, positions, hfix, hop, hspine⟩ := ih b hb
      exact ⟨by simp [htokens], positions, hfix, hop, fun hleft => List.mem_cons_of_mem _ (hspine hleft)⟩
    · obtain rfl := List.mem_singleton.1 hb
      exact ⟨by simp, _, by simp [fixities], kind, fun _ => List.mem_cons_self⟩

/-- Reducing the stacks of a derivation gives the derivation. -/
theorem reduceAll {results : List Derived} (h : Unfolds g d operators operands)
    (hr : Trace.reduceAll g operators lower (operands ++ others) = some results) :
    ∃ x, results = x :: others ∧ x.derivation = d := by
  induction h generalizing lower others results with
  | whole x =>
    cases hr
    exact ⟨x, rfl, rfl⟩
  | @lead a right operators operands kind h ih =>
    rw [reduceAll_append] at hr
    obtain ⟨_, hinner, hr⟩ := Option.bind_eq_some_iff.1 hr
    obtain ⟨y, rfl, rfl⟩ := ih hinner
    obtain ⟨_, ha, hr⟩ := Option.bind_eq_some_iff.1 hr
    cases hr
    have hjoined := joined_of_reduce kind (by simp [fixities]) ha
    cases hjoined with
    | lead => exact ⟨_, rfl, rfl⟩
    | trail kind' => cases kind.unique kind'
    | join kind' => cases kind.unique kind'
  | @trail a kind x =>
    obtain ⟨_, ha, hr⟩ := Option.bind_eq_some_iff.1 hr
    cases hr
    have hjoined := joined_of_reduce kind (by simp [fixities]) ha
    generalize hs : [x] ++ others = stack at hjoined
    cases hjoined with
    | lead kind' => cases kind.unique kind'
    | trail =>
      cases hs
      exact ⟨_, rfl, rfl⟩
    | join kind' => cases kind.unique kind'
  | @join a right operators operands kind x h ih =>
    rw [reduceAll_append, List.append_assoc] at hr
    obtain ⟨_, hinner, hr⟩ := Option.bind_eq_some_iff.1 hr
    obtain ⟨y, rfl, rfl⟩ := ih hinner
    obtain ⟨_, ha, hr⟩ := Option.bind_eq_some_iff.1 hr
    cases hr
    have hjoined := joined_of_reduce kind (by simp [fixities]) ha
    generalize hs : y :: ([x] ++ others) = stack at hjoined
    cases hjoined with
    | lead kind' => cases kind.unique kind'
    | trail kind' => cases kind.unique kind'
    | join =>
      cases hs
      exact ⟨_, rfl, rfl⟩

end Unfolds

/-! ## Operators -/

/-- An operator with a precedence first reduces what yields to it. -/
theorem apply_of_fold {s : Trace} {t : Token} {positions : List Side} {precedence : Int}
    {build : OperatorBuilder} (hk : g.kind t.rule = .operator positions (some precedence) build)
    (hleft : Side.left ∈ positions) :
    s.apply g t = (foldWhile g (yieldsTo precedence) s.operators s.operands).bind fun r =>
      some ⟨s.parameters, r.2, ⟨⟨t, none⟩, none⟩ :: r.1⟩ := by
  have hcontains : positions.contains .left = true := List.contains_iff_mem.2 hleft
  simp only [apply, hk, hcontains, if_true, fold]
  cases foldWhile g (yieldsTo precedence) s.operators s.operands <;> rfl

/-- Any other operator just waits. -/
theorem apply_of_wait {s : Trace} {t : Token} {positions : List Side} {precedence : Option Int}
    {build : OperatorBuilder} (hk : g.kind t.rule = .operator positions precedence build)
    (h : precedence = none ∨ Side.left ∉ positions) : s.apply g t = some (s.await t) := by
  simp only [apply, hk]
  cases precedence with
  | none => rfl
  | some precedence =>
    have hleft : positions.contains .left = false := by
      simpa using h.resolve_left (by simp)
    simp only [hleft, Bool.false_eq_true, if_false]
    rfl

/-- No operator that takes an operand from its right ends where the stacks do. -/
def Fresh (g : Grammar) (operators : List Pending) (operands : List Derived) : Prop :=
  (∀ q ∈ operators.head?, ¬ g.IsOperator [.left] q.token) →
    ∀ x ∈ operands.head?, x.derivation.rightSpine = []

/-- An operator that takes an operand from its left goes on top of what does not yield to it. -/
theorem apply_operator (parameters : List Parameter) {t : Token} {positions : List Side}
    (h : Segment g total start true operators operands stop) (hbase : Base g start lower others)
    (hfresh : Fresh g operators operands) (hop : g.IsOperator positions t)
    (hfix : positions ∈ fixities) (hleft : Side.left ∈ positions) (hplace : stop ≤ t.extent.start)
    (hwidth : t.extent.start < t.extent.stop) (hwilling : total → (g.kind t.rule).Willing)
    (hreleases : total → ∀ q ∈ operators.head?, g.IsOperator [.left] q.token →
      (g.kind q.rule).precedence?.isSome = true ∧ (g.kind t.rule).precedence?.isSome = true) :
    Ensures total (apply g ⟨parameters, operands ++ others, operators ++ lower⟩ t) fun s =>
      ∃ ops xs, s = ⟨parameters, xs ++ others, ⟨⟨t, none⟩, none⟩ :: ops ++ lower⟩ ∧
        Segment g total start (!positions.contains .right) (⟨⟨t, none⟩, none⟩ :: ops) xs
          t.extent.stop := by
  obtain ⟨precedence, build, hk⟩ := hop
  have hop : g.IsOperator positions t := ⟨precedence, build, hk⟩
  have hcontains : positions.contains .left = true := List.contains_iff_mem.2 hleft
  have hedge (hhead : ∀ q ∈ operators.head?, ¬ g.IsOperator [.left] q.token) :
      ∀ x ∈ operands.head?, ∀ q ∈ x.derivation.rightSpine, g.Binds q t := by
    intro x hx q hq
    rw [hfresh hhead x hx] at hq
    cases hq
  have hsegment {ops : List Pending} {xs : List Derived}
      (h : Segment g total start true ops xs stop) (hstays : Stays g total ops xs t) :
      Segment g total start (!positions.contains .right) (⟨⟨t, none⟩, none⟩ :: ops) xs
        t.extent.stop :=
    .operator (a := ⟨⟨t, none⟩, none⟩) (hcontains ▸ h) hfix hop hplace hwidth hwilling fun _ => hstays
  cases precedence with
  | none =>
    rw [apply_of_wait hk (.inl rfl)]
    have hunranked (q : Token) : ¬ g.Binds q t := by
      rintro ⟨p, r, -, hr, -⟩
      rw [hk] at hr
      cases hr
    refine .some ⟨operators, operands, rfl, hsegment h ⟨fun q hq hop ht => ?_, fun q _ => hunranked _,
      hedge⟩⟩
    have hranked := (hreleases ht q hq hop).2
    rw [hk] at hranked
    cases hranked
  | some precedence =>
    rw [apply_of_fold hk hleft]
    refine (h.foldWhile (p := precedence) (by rw [hk]; rfl) hbase
      (fun ht q hq hop => (hreleases ht q hq hop).1) hedge).bind ?_
    rintro _ ⟨ops, xs, rfl, h, hstays⟩
    exact .some ⟨ops, xs, rfl, hsegment h hstays⟩

/-- If it binds nothing below a derivation and all operators at its right edge, the derivation is its
left operand. -/
theorem apply_unfolds {s : Trace} {parameters : List Parameter} {t : Token} {positions : List Side}
    {precedence : Int} {build : OperatorBuilder}
    (hk : g.kind t.rule = .operator positions (some precedence) build)
    (hleft : Side.left ∈ positions) (h : Unfolds g d operators operands)
    (hranked : ∀ a ∈ operators, (g.kind a.rule).precedence?.isSome = true)
    (hkeeps : ∀ q ∈ d.rightSpine, g.Binds q t)
    (hlower : ∀ a ∈ lower.head?, yieldsTo precedence (g.kind a.rule) = false)
    (hs : apply g ⟨parameters, operands ++ others, operators ++ lower⟩ t = some s) :
    ∃ x, x.derivation = d ∧ s = ⟨parameters, x :: others, ⟨⟨t, none⟩, none⟩ :: lower⟩ := by
  have hyields : ∀ a ∈ operators, yieldsTo precedence (g.kind a.rule) = true := by
    intro a ha
    obtain ⟨-, positions, hfix, hop, hspine⟩ := h.mem a ha
    by_cases htrail : g.IsOperator [.left] a.token
    · obtain ⟨p, hp⟩ := Option.isSome_iff_exists.1 (hranked a ha)
      obtain ⟨_, _, hka⟩ := htrail
      rw [show g.kind a.rule = _ from hka] at hp ⊢
      obtain rfl : _ = some p := hp
      simp [yieldsTo, RuleKind.precedence?, RuleKind.positions]
    · exact Segment.yieldsTo_of_binds (by rw [hk]; rfl) (hkeeps _ (hspine htrail))
  rw [apply_of_fold hk hleft, foldWhile_append hyields] at hs
  obtain ⟨r, hr, hs⟩ := Option.bind_eq_some_iff.1 hs
  obtain ⟨results, hresults, hr⟩ := Option.bind_eq_some_iff.1 hr
  obtain ⟨x, rfl, hx⟩ := h.reduceAll hresults
  have hstop : foldWhile g (yieldsTo precedence) lower (x :: others) = some (lower, x :: others) := by
    cases lower with
    | nil => rfl
    | cons a lower => simp [foldWhile, hlower a rfl]
  rw [hstop] at hr
  cases hr
  cases hs
  exact ⟨x, hx, rfl⟩

/-! ## Brackets -/

/-- A derivation that goes by precedences, which all its operators have. -/
structure Ruled (g : Grammar) (d : Derivation) : Prop where
  obeys : d.Obeys g
  ranked : ∀ t ∈ d.tokens, ∀ positions, g.IsOperator positions t →
    (g.kind t.rule).precedence?.isSome = true

theorem Ruled.of_part {e : Derivation} (h : Ruled g e) (hd : d.Part e) : Ruled g d :=
  ⟨h.obeys.of_part hd, fun t ht => h.ranked t (hd.mem_tokens ht)⟩

/-- The stacks after some arguments of a bracket, with the delimiters between them. -/
inductive Arguments (g : Grammar) (total : Prop) (close opening : Token) (lower : List Pending)
    (others : List Derived) :
    List Pending → List Derived → List Derivation → List Token → Nat → Prop
  | first {d : Derivation} {operators : List Pending} {operands : List Derived} {stop : Nat}
      (h : Segment g total opening.extent.stop true operators operands stop)
      (unfolds : Ruled g d → Unfolds g d operators operands) :
      Arguments g total close opening lower others
        (operators ++ ⟨⟨opening, none⟩, none⟩ :: lower) (operands ++ others) [d] [] stop
  | more {t : Token} {d : Derivation} {before operators : List Pending}
      {earlier operands : List Derived} {args : List Derivation} {delimiters : List Token}
      {mid stop : Nat}
      (rest : Arguments g total close opening lower others before earlier args delimiters mid)
      (separates : g.Separates close t) (place : mid ≤ t.extent.start)
      (width : t.extent.start < t.extent.stop)
      (h : Segment g total t.extent.stop true operators operands stop)
      (unfolds : Ruled g d → Unfolds g d operators operands) :
      Arguments g total close opening lower others (operators ++ ⟨⟨t, none⟩, none⟩ :: before)
        (operands ++ earlier) (args ++ [d]) (delimiters ++ [t]) stop

/-- An argument that a bracket holds. -/
structure Held (g : Grammar) (start stop : Nat) (d : Derivation) (x : Derived) : Prop where
  start_le : start ≤ x.extent.start
  stop_le : x.extent.stop ≤ stop
  obeys : x.derivation.Obeys g
  eq_of_ruled : Ruled g d → x.derivation = d

/-- A segment is reduced to the derivation that unfolds to it. -/
theorem reduceAll_unfolds (h : Segment g total start true operators operands stop)
    (unfolds : Ruled g d → Unfolds g d operators operands) (hbase : Base g start lower others) :
    Ensures total (reduceAll g operators lower (operands ++ others)) fun results =>
      ∃ x, results = x :: others ∧ Whole g start stop x ∧ (Ruled g d → x.derivation = d) := by
  refine ⟨(h.reduceAll hbase).1, fun results hr => ?_⟩
  obtain ⟨x, rfl, hx⟩ := (h.reduceAll hbase).2 results hr
  refine ⟨x, rfl, hx, fun hd => ?_⟩
  obtain ⟨y, hy, hyd⟩ := (unfolds hd).reduceAll hr
  cases hy
  exact hyd

namespace Arguments

variable {close opening : Token} {args : List Derivation} {delimiters : List Token}

theorem le (h : Arguments g total close opening lower others operators operands args delimiters
    stop) : opening.extent.stop ≤ stop := by
  induction h with
  | first h => exact h.le
  | more _ _ place width h _ ih =>
    have := h.le
    omega

theorem head_lt (h : Arguments g total close opening lower others operators operands args delimiters
    stop) : ∀ x ∈ operands.head?, x.extent.start < stop := by
  have hhead {start stop : Nat} {ops : List Pending} {xs ys : List Derived}
      (h : Segment g total start true ops xs stop) :
      ∀ x ∈ (xs ++ ys).head?, x.extent.start < stop := by
    obtain ⟨y, xs, rfl⟩ := List.exists_cons_of_ne_nil (h.operands_ne_nil rfl)
    intro x hx
    have := h.head_le x hx
    omega
  cases h with
  | first h => exact hhead h
  | more _ _ _ _ h => exact hhead h

/-- Behind a delimiter starts a segment. -/
theorem base (hlinked : g.Linked)
    (h : Arguments g total close opening lower others operators operands args delimiters stop)
    {t : Token} (hseparates : g.Separates close t) (hplace : stop ≤ t.extent.start)
    (hwidth : t.extent.start < t.extent.stop) :
    Base g t.extent.stop (⟨⟨t, none⟩, none⟩ :: operators) operands := by
  refine ⟨?_, le_rfl, fun x hx => ?_⟩
  · rintro a ha
    cases ha
    have hk := hlinked.isDelimiter hseparates
    change (g.kind t.rule).precedence? = none
    cases hk' : g.kind t.rule <;> simp_all [RuleKind.isDelimiter, RuleKind.precedence?]
  · have := h.head_lt x hx
    omega

/-- Operators are not what a close bracket looks for. -/
theorem not_linked (hlinked : g.Linked) {opens : List String} {delimiter : Option String}
    (hk : g.kind close.rule = .bracketClose opens delimiter) {a : Pending} {positions : List Side}
    (ha : g.IsOperator positions a.token) :
    (g.linksOf close.rule).opens.contains a.rule = false ∧
      (g.linksOf close.rule).delimiter ≠ some a.rule := by
  obtain ⟨precedence, build, ha⟩ := ha
  constructor
  · by_contra hne
    have hopens := hlinked.isOpen ((hlinked.closes hk).1 (by simpa using hne))
    rw [ha] at hopens
    cases hopens
  · intro heq
    have hdelimiter := hlinked.isDelimiter ((hlinked.separates hk).1 heq)
    rw [ha] at hdelimiter
    cases hdelimiter

/-- Unwinding finds the arguments between the bracket and its delimiters. -/
theorem unwind (hlinked : g.Linked) {opens : List String} {delimiter : Option String}
    (hk : g.kind close.rule = .bracketClose opens delimiter) (hcloses : g.Closes close opening)
    (hbase : Base g opening.extent.stop (⟨⟨opening, none⟩, none⟩ :: lower) others)
    (h : Arguments g total close opening lower others operators operands args delimiters stop)
    {previous : Extent} (contents : List Derived) (others' : List Token)
    (hprevious : stop ≤ previous.start) :
    Ensures total
      (unwind g (g.linksOf close.rule) previous contents others' operators operands) fun u =>
        ∃ xs, u = ⟨⟨⟨opening, none⟩, none⟩, xs ++ contents, delimiters ++ others', lower, others⟩ ∧
          List.Forall₂ (Held g opening.extent.stop previous.start) args xs := by
  have hlinks {start stop : Nat} {ops : List Pending} {xs : List Derived}
      (h : Segment g total start true ops xs stop) : ∀ a ∈ ops,
        (g.linksOf close.rule).opens.contains a.rule = false ∧
          (g.linksOf close.rule).delimiter ≠ some a.rule := by
    intro a ha
    obtain ⟨⟨positions, -, hop⟩, -⟩ := h.kinds a ha
    exact not_linked hlinked hk hop
  induction h generalizing previous contents others' with
  | @first d ops xs stop h unfolds =>
    rw [unwind_append (hlinks h)]
    refine (reduceAll_unfolds h unfolds hbase).bind ?_
    rintro _ ⟨x, rfl, hx, hd⟩
    have hopens := (hlinked.closes hk).2 hcloses
    have hstop : x.extent.stop ≤ previous.start := hx.stop_eq ▸ hprevious
    have htake : takeBetween? opening.extent previous (x :: others) = some (x, others) :=
      takeBetween?_eq_some.2 ⟨rfl, hx.start_le, hstop⟩
    simp only [Trace.unwind, hopens, if_true]
    rw [htake]
    exact .some ⟨[x], rfl, .cons ⟨hx.start_le, hstop, hx.obeys, hd⟩ .nil⟩
  | @more t d before ops earlier xs args delimiters mid stop rest separates place width h unfolds ih =>
    rw [unwind_append (hlinks h)]
    refine (reduceAll_unfolds h unfolds (rest.base hlinked separates place width)).bind ?_
    rintro _ ⟨x, rfl, hx, hd⟩
    have hopens : (g.linksOf close.rule).opens.contains t.rule = false := by
      by_contra hne
      have hopen := hlinked.isOpen ((hlinked.closes hk).1 (by simpa using hne))
      have hdelimiter := hlinked.isDelimiter separates
      cases hk' : g.kind t.rule <;> simp_all [RuleKind.isDelimiter, RuleKind.isOpen]
    have hdelimiter := (hlinked.separates hk).2 separates
    have hstop : x.extent.stop ≤ previous.start := hx.stop_eq ▸ hprevious
    have htake : takeBetween? t.extent previous (x :: earlier) = some (x, earlier) :=
      takeBetween?_eq_some.2 ⟨rfl, hx.start_le, hstop⟩
    simp only [Trace.unwind, hopens, Bool.false_eq_true, if_false]
    rw [if_pos hdelimiter, htake]
    refine (ih _ _ place).mono ?_
    rintro _ ⟨ys, rfl, hys⟩
    have hopening := rest.le
    have hxstart := hx.start_le
    have hxwidth := hx.width
    refine ⟨ys ++ [x], by simp, List.rel_append (hys.imp fun e y hy => ?_) (.cons ?_ .nil)⟩
    · have hy' := hy.stop_le
      exact ⟨hy.start_le, by omega, hy.obeys, hy.eq_of_ruled⟩
    · exact ⟨by omega, hstop, hx.obeys, hd⟩

end Arguments

/-- What a bracket is made to: an operand from its opening to its close, with no operator at its
edges. -/
structure Primary (g : Grammar) (start stop : Nat) (d : Derivation) (x : Derived) : Prop where
  extent_eq : x.extent = ⟨start, stop⟩
  obeys : x.derivation.Obeys g
  leftSpine_eq : x.derivation.leftSpine = []
  rightSpine_eq : x.derivation.rightSpine = []
  eq_of_ruled : Ruled g d → x.derivation = d

section Close

variable {parameters : List Parameter} {close opening : Token} {args : List Derivation}
  {delimiters : List Token}

/-- What unwinding finds between an opening and a close. -/
def Found (g : Grammar) (opening close : Token) (lower : List Pending) (others : List Derived)
    (args : List Derivation) (delimiters : List Token) (u : Unwound) : Prop :=
  ∃ xs, u = ⟨⟨⟨opening, none⟩, none⟩, xs, delimiters, lower, others⟩ ∧
    List.Forall₂ (Held g opening.extent.stop close.extent.start) args xs

theorem close_bracket {d : Derivation} (hopen : g.IsOpen opening)
    (hopening : opening.extent.start < opening.extent.stop)
    (hplace : opening.extent.stop ≤ close.extent.start)
    (hclose : close.extent.start < close.extent.stop)
    (hu : Ensures total (unwind g (g.linksOf close.rule) close.extent [] [] operators operands)
      (Found g opening close lower others [d] [])) :
    Ensures total (Trace.close g ⟨parameters, operands, operators⟩ close) fun s =>
      ∃ x, s = ⟨parameters, x :: others, lower⟩ ∧
        Primary g opening.extent.start close.extent.stop (.bracket opening d close) x := by
  have hk : g.kind opening.rule = .bracketOpen := hopen
  constructor
  · intro ht
    obtain ⟨u, hu'⟩ := Option.isSome_iff_exists.1 (hu.1 ht)
    obtain ⟨xs, rfl, hxs⟩ := hu.2 u hu'
    obtain ⟨x, _, hx, hnil, rfl⟩ := List.forall₂_cons_left_iff.1 hxs
    obtain rfl := List.forall₂_nil_left_iff.1 hnil
    rw [close_eq_some.2 (.bracket hu' (by simp [hk]) (show _ = [x] from rfl))]
    rfl
  · intro s hs
    cases close_eq_some.1 hs with
    | call hu' hkind =>
      obtain ⟨xs, rfl, hxs⟩ := hu.2 _ hu'
      cases hk.symm.trans hkind
    | collection hu' hkind =>
      obtain ⟨xs, rfl, hxs⟩ := hu.2 _ hu'
      cases hk.symm.trans hkind
    | @bracket u inner hu' hkind hsingle =>
      obtain ⟨xs, rfl, hxs⟩ := hu.2 _ hu'
      obtain rfl : xs = [inner] := hsingle
      cases hxs with
      | cons hx _ =>
        have hstart := hx.start_le
        have hstop := hx.stop_le
        have hextent := cover_cover_eq (a := opening.extent) (b := inner.extent) (c := close.extent)
          (by omega) (by omega) (by omega) (by omega)
        refine ⟨_, rfl, hextent, hx.obeys.bracket, rfl, rfl, fun hd => ?_⟩
        rw [hx.eq_of_ruled (hd.of_part (.bracket .refl))]

/-- A function that takes any arguments and whose builders do not refuse can be called. -/
theorem callFunction_isOk {overloads : List Overload} (contents : List Operand)
    (opening close : Extent) (hne : overloads ≠ [])
    (hwilling : (RuleKind.functionCall overloads).Willing) :
    ∃ result, callFunction overloads contents opening close = .ok result := by
  obtain ⟨o, os, rfl⟩ := List.exists_cons_of_ne_nil hne
  have hcandidates : ∃ o' os', Overload.candidates (o :: os) contents.length = o' :: os' := by
    refine List.exists_cons_of_ne_nil fun hnil => ?_
    have hmem : o ∈ Overload.candidates (o :: os) contents.length :=
      mem_candidates.2 ⟨List.mem_cons_self, by
        simp [Overload.accepts, Overload.arity?, (hwilling o List.mem_cons_self).1]⟩
    rw [hnil] at hmem
    cases hmem
  obtain ⟨o', os', hcandidates⟩ := hcandidates
  obtain ⟨hvariadic, hbuild⟩ := hwilling o' (mem_candidates.1 (hcandidates ▸ List.mem_cons_self)).1
  obtain ⟨e, he⟩ := hbuild (contents.map Operand.expr)
  have hfirst (args : Extent) (single : Bool) :
      callFirst contents opening args single (o' :: os') = .ok e := by
    refine bind_eq_ok.2 ⟨.ok (contents.map Operand.expr), by simp [Overload.convert, hvariadic], ?_⟩
    simpa using he
  simp only [callFunction, hcandidates]
  exact ⟨_, bind_eq_ok.2 ⟨e, hfirst _ _, rfl⟩⟩

theorem close_call (hlinked : g.Linked) (hcall : g.IsCall opening)
    (hwilling : total → (g.kind opening.rule).Willing)
    (hopening : opening.extent.start < opening.extent.stop)
    (hplace : opening.extent.stop ≤ close.extent.start)
    (hclose : close.extent.start < close.extent.stop)
    (hu : Ensures total (unwind g (g.linksOf close.rule) close.extent [] [] operators operands)
      (Found g opening close lower others args delimiters)) :
    Ensures total (Trace.close g ⟨parameters, operands, operators⟩ close) fun s =>
      ∃ x, s = ⟨parameters, x :: others, lower⟩ ∧
        Primary g opening.extent.start close.extent.stop (.call opening args delimiters close) x := by
  obtain ⟨overloads, hk⟩ := hcall
  constructor
  · intro ht
    obtain ⟨u, hu'⟩ := Option.isSome_iff_exists.1 (hu.1 ht)
    obtain ⟨xs, rfl, hxs⟩ := hu.2 u hu'
    have hwilling := hwilling ht
    rw [hk] at hwilling
    obtain ⟨result, hresult⟩ := callFunction_isOk (xs.map Derived.operand) opening.extent
      close.extent (hlinked.overloads hk) hwilling
    rw [close_eq_some.2 (.call hu' hk hresult)]
    rfl
  · intro s hs
    cases close_eq_some.1 hs with
    | @call u overloads result hu' hkind hcalled =>
      obtain ⟨xs, rfl, hxs⟩ := hu.2 _ hu'
      have hheld := (exists_of_forall₂ hxs).2
      have hextent := called_extent (called_of_callFunction hcalled) hopening.le
        (show opening.extent.start ≤ close.extent.start by omega)
        (show opening.extent.stop ≤ close.extent.stop by omega) hclose.le fun x hx => by
          obtain ⟨y, hy, rfl⟩ := List.mem_map.1 hx
          obtain ⟨d, -, hy⟩ := hheld y hy
          have hstart := hy.start_le
          have hstop := hy.stop_le
          exact (by omega : opening.extent.start ≤ y.extent.start ∧
            y.extent.stop ≤ close.extent.stop)
      refine ⟨_, rfl, hextent, .call fun d hd => ?_, rfl, rfl, fun hruled => ?_⟩
      · obtain ⟨y, hy, rfl⟩ := List.mem_map.1 hd
        obtain ⟨d, -, hy⟩ := hheld y hy
        exact hy.obeys
      · have hargs {args : List Derivation} {xs : List Derived}
            (hxs : List.Forall₂ (Held g opening.extent.stop close.extent.start) args xs)
            (hruled : ∀ d ∈ args, Ruled g d) : xs.map Derived.derivation = args := by
          induction hxs with
          | nil => rfl
          | cons hx _ ih =>
            rw [List.map_cons, hx.eq_of_ruled (hruled _ List.mem_cons_self),
              ih fun d hd => hruled d (List.mem_cons_of_mem _ hd)]
        have hargs := hargs hxs fun d hd => hruled.of_part (.call hd .refl)
        exact congrArg (Derivation.call opening · delimiters close) hargs
    | collection hu' hkind =>
      obtain ⟨xs, rfl, hxs⟩ := hu.2 _ hu'
      cases hk.symm.trans hkind
    | bracket hu' hkind =>
      obtain ⟨xs, rfl, hxs⟩ := hu.2 _ hu'
      exact absurd hk (hkind.1 overloads)

end Close

/-! ## Derivations -/

theorem applyAll_append (s : Trace) (ts us : List Token) :
    s.applyAll g (ts ++ us) = (s.applyAll g ts).bind (·.applyAll g us) := by
  induction ts generalizing s with
  | nil => rfl
  | cons t ts ih =>
    simp only [List.cons_append, applyAll, Option.bind_eq_bind]
    cases s.apply g t with
    | none => rfl
    | some s => exact ih s

/-- What reading a derivation makes of stacks in which a segment lacks an operand. -/
structure Reached (g : Grammar) (total : Prop) (d : Derivation) (start stop : Nat)
    (operators : List Pending) (operands : List Derived) (ops : List Pending) (xs : List Derived)
    (mid : Nat) : Prop where
  le : mid ≤ stop
  segment : Segment g total start true ops xs mid
  fresh : Fresh g ops xs
  trailing : ∀ q ∈ ops.head?, g.IsOperator [.left] q.token → d.tokens.getLast? = some q.token
  unfolds : Ruled g d → (∀ q ∈ operators.head?, ∀ o ∈ d.leftSpine, ¬ g.Binds q.token o) →
    ∃ ops' xs', ops = ops' ++ operators ∧ xs = xs' ++ operands ∧ Unfolds g d ops' xs'

theorem Reached.of_operand {mid : Nat} {x : Derived}
    (h : Segment g total start false operators operands mid) (hplace : mid ≤ x.extent.start)
    (hwidth : x.extent.start < x.extent.stop) (hstop : x.extent.stop ≤ stop)
    (hobeys : x.derivation.Obeys g) (hleft : x.derivation.leftSpine = [])
    (hright : x.derivation.rightSpine = []) (heq : Ruled g d → x.derivation = d) :
    Reached g total d start stop operators operands operators (x :: operands) x.extent.stop where
  le := hstop
  segment := .operand h hplace hwidth hobeys fun q _ o ho => by simp [hleft] at ho
  fresh := fun _ y hy => by
    cases hy
    exact hright
  trailing := fun q hq hop => absurd hop (h.not_trailing q hq)
  unfolds := fun hd _ => ⟨[], [x], rfl, rfl, heq hd ▸ .whole x⟩

theorem Reached.of_primary {mid first last : Nat} {x : Derived}
    (h : Segment g total start false operators operands mid) (hplace : mid ≤ first)
    (hwidth : first < last) (hstop : last ≤ stop) (hx : Primary g first last d x) :
    Reached g total d start stop operators operands operators (x :: operands) x.extent.stop := by
  have hextent := hx.extent_eq
  refine .of_operand h ?_ ?_ ?_ hx.obeys hx.leftSpine_eq hx.rightSpine_eq hx.eq_of_ruled
  · rw [hextent]
    exact hplace
  · rw [hextent]
    exact hwidth
  · rw [hextent]
    exact hstop

/-- Whatever is below, a derivation may be read where a segment lacks an operand. -/
def Reads (g : Grammar) (total : Prop) (d : Derivation) : Prop :=
  ∀ (parameters : List Parameter) (start mid stop : Nat) (operators lower : List Pending)
    (operands others : List Derived), Base g start lower others →
    Segment g total start false operators operands mid → Ordered mid d.tokens stop →
    (total → g.Smooth d.tokens) →
      Ensures total
        (applyAll g ⟨parameters, operands ++ others, operators ++ lower⟩ d.tokens) fun s =>
          ∃ ops xs mid', s = ⟨parameters, xs ++ others, ops ++ lower⟩ ∧
            Reached g total d start stop operators operands ops xs mid'

theorem reads_token {t : Token} (ht : g.isOperand t = true) : Reads g total (.token t) := by
  intro parameters start mid stop operators lower operands others hbase h hordered hsmooth
  obtain ⟨hplace, hwidth, hstop⟩ : mid ≤ t.extent.start ∧ t.extent.start < t.extent.stop ∧
    t.extent.stop ≤ stop := hordered
  obtain ⟨build, hk⟩ : ∃ build, g.kind t.rule = .operand build := by
    cases hk : g.kind t.rule <;> simp_all [Grammar.isOperand]
  have happly : applyAll g ⟨parameters, operands ++ others, operators ++ lower⟩ [t] =
      (build t.text parameters).toOption.bind fun expr =>
        some ⟨parameters, ⟨⟨expr, t.extent⟩, .token t⟩ :: (operands ++ others),
          operators ++ lower⟩ := by
    simp only [applyAll, apply, hk]
    cases build t.text parameters <;> rfl
  refine ⟨fun htot => ?_, fun s hs => ?_⟩
  · have hbuild : (g.kind t.rule).Willing := (hsmooth htot).head
    rw [hk] at hbuild
    obtain ⟨e, he⟩ := hbuild t.text parameters
    rw [show (Derivation.token t).tokens = [t] from rfl, happly, he]
    rfl
  · rw [show (Derivation.token t).tokens = [t] from rfl, happly] at hs
    obtain ⟨e, -, hs⟩ := Option.bind_eq_some_iff.1 hs
    cases hs
    exact ⟨operators, _, _, rfl,
      .of_operand h hplace hwidth hstop (.token t) rfl rfl fun _ => rfl⟩

theorem reads_lead {o : Token} {right : Derivation} (hop : g.IsOperator [.right] o)
    (hright : Reads g total right) : Reads g total (.operation o [] [right]) := by
  intro parameters start mid stop operators lower operands others hbase h hordered hsmooth
  rw [Derivation.tokens_lead] at hordered hsmooth ⊢
  obtain ⟨hplace, hwidth, hordered⟩ := hordered
  obtain ⟨precedence, build, hk⟩ := hop
  have happly : applyAll g ⟨parameters, operands ++ others, operators ++ lower⟩
      (o :: right.tokens) = applyAll g ⟨parameters, operands ++ others,
        ⟨⟨o, none⟩, none⟩ :: operators ++ lower⟩ right.tokens := by
    simp only [applyAll, apply_of_wait hk (.inr (by simp)), Option.bind_eq_bind, Option.bind_some]
    rfl
  have hsegment : Segment g total start false (⟨⟨o, none⟩, none⟩ :: operators) operands
      o.extent.stop :=
    .operator (a := ⟨⟨o, none⟩, none⟩) h (by simp [fixities]) ⟨precedence, build, hk⟩ hplace hwidth
      (fun ht => (hsmooth ht).head) (by simp)
  rw [happly]
  refine (hright parameters start _ stop _ lower operands others hbase hsegment hordered
    fun ht => (hsmooth ht).tail).mono ?_
  rintro _ ⟨ops, xs, mid', rfl, hr⟩
  refine ⟨ops, xs, mid', rfl, hr.le, hr.segment, hr.fresh, fun q hq hop => ?_, fun hd _ => ?_⟩
  · rw [Derivation.tokens_lead, List.getLast?_cons, hr.trailing q hq hop]
    rfl
  have hpart : right.Part (.operation o [] [right]) := .right List.mem_cons_self .refl
  have htakes : ∀ q ∈ (⟨⟨o, none⟩, none⟩ :: operators : List Pending).head?,
      ∀ p ∈ right.leftSpine, ¬ g.Binds q.token p := by
    intro q hq p hp
    cases hq
    exact hd.obeys.takes ⟨[], right, .refl, hp⟩
  obtain ⟨ops', xs', rfl, rfl, hu⟩ := hr.unfolds (hd.of_part hpart) htakes
  exact ⟨ops' ++ [⟨⟨o, none⟩, none⟩], xs', by simp, rfl,
    .lead (a := ⟨⟨o, none⟩, none⟩) ⟨precedence, build, hk⟩ hu⟩

/-- An operator that takes the derivation that has been read from its left. -/
theorem apply_reached {parameters : List Parameter} {left : Derivation} {o : Token}
    {positions : List Side} {ops : List Pending} {xs : List Derived} {mid mid' : Nat}
    (hr : Reached g total left start stop operators operands ops xs mid')
    (hbase : Base g start lower others) (h : Segment g total start false operators operands mid)
    (hop : g.IsOperator positions o) (hfix : positions ∈ fixities) (hleft : Side.left ∈ positions)
    (hplace : stop ≤ o.extent.start) (hwidth : o.extent.start < o.extent.stop)
    (hwilling : total → (g.kind o.rule).Willing)
    (hreleases : total → ∀ q, left.tokens.getLast? = some q → g.Releases q o) :
    Ensures total (apply g ⟨parameters, xs ++ others, ops ++ lower⟩ o) fun s => ∃ ops xs,
      s = ⟨parameters, xs ++ others, ⟨⟨o, none⟩, none⟩ :: ops ++ lower⟩ ∧
        Segment g total start (!positions.contains .right) (⟨⟨o, none⟩, none⟩ :: ops) xs
          o.extent.stop ∧
        (Ruled g left → (g.kind o.rule).precedence?.isSome = true →
          (∀ q ∈ left.rightSpine, g.Binds q o) →
          (∀ q ∈ operators.head?, ∀ p ∈ o :: left.leftSpine, ¬ g.Binds q.token p) →
            ops = operators ∧ ∃ x, x.derivation = left ∧ xs = x :: operands) := by
  have hpositions : Side.left ∈ (g.kind o.rule).positions := by
    obtain ⟨precedence, build, hk⟩ := hop
    rw [hk]
    exact hleft
  have happly := apply_operator parameters hr.segment hbase hr.fresh hop hfix hleft
    (hr.le.trans hplace) hwidth hwilling fun ht q hq hqop =>
      hreleases ht q.token (hr.trailing q hq hqop) hqop hpositions
  refine ⟨happly.1, fun s hs => ?_⟩
  obtain ⟨ops₂, xs₂, rfl, hsegment⟩ := happly.2 s hs
  refine ⟨ops₂, xs₂, rfl, hsegment, fun hd hranked hkeeps htakes => ?_⟩
  obtain ⟨precedence, build, hk⟩ := hop
  rw [hk] at hranked
  obtain ⟨p, rfl⟩ := Option.isSome_iff_exists.1 hranked
  obtain ⟨ops', xs', rfl, rfl, hu⟩ := hr.unfolds hd fun q hq o' ho =>
    htakes q hq o' (List.mem_cons_of_mem _ ho)
  have hlower : ∀ a ∈ (operators ++ lower).head?, yieldsTo p (g.kind a.rule) = false := by
    intro a ha
    cases operators with
    | nil => simp [yieldsTo, hbase.kind a ha]
    | cons b operators =>
      obtain rfl : b = a := Option.some.inj ha
      obtain ⟨⟨positions, hfix, hop⟩, -⟩ := h.kinds b List.mem_cons_self
      by_contra hyields
      have hbinds := Segment.binds_of_yieldsTo (o := o) (by rw [hk]; rfl) hop hfix
        (h.not_trailing b rfl) (by simpa using hyields)
      exact htakes b rfl o List.mem_cons_self hbinds
  rw [List.append_assoc, List.append_assoc] at hs
  obtain ⟨x, hx, heq⟩ := apply_unfolds hk hleft hu
    (fun a ha => hd.ranked _ (hu.mem a ha).1 _ (hu.mem a ha).2.choose_spec.2.1) hkeeps hlower hs
  obtain ⟨-, hxs, hops⟩ := Trace.mk.inj heq
  have hops : ops₂ = operators := List.append_cancel_right (List.cons.inj hops).2
  have hxs : xs₂ = x :: operands := List.append_cancel_right hxs
  exact ⟨hops, x, hx, hxs⟩

theorem applyAll_singleton (s : Trace) (t : Token) : s.applyAll g [t] = s.apply g t := by
  simp only [applyAll, Option.bind_eq_bind]
  cases s.apply g t <;> rfl

theorem reads_trail {o : Token} {left : Derivation} (hop : g.IsOperator [.left] o)
    (hleft : Reads g total left) : Reads g total (.operation o [left] []) := by
  intro parameters start mid stop operators lower operands others hbase h hordered hsmooth
  rw [Derivation.tokens_trail] at hordered hsmooth ⊢
  obtain ⟨mid₁, hordered, hplace, hwidth, hstop⟩ := Ordered.append_iff.1 hordered
  rw [applyAll_append]
  refine (hleft parameters start mid mid₁ operators lower operands others hbase h hordered
    fun ht => (hsmooth ht).left).bind ?_
  rintro _ ⟨ops, xs, mid', rfl, hr⟩
  rw [applyAll_singleton]
  refine (apply_reached hr hbase h hop (by simp [fixities]) (by simp) hplace hwidth
    (fun ht => (hsmooth ht).right.head) fun ht q hq => (hsmooth ht).between hq).mono ?_
  rintro _ ⟨ops₂, xs₂, rfl, hsegment, hexact⟩
  refine ⟨_, xs₂, o.extent.stop, rfl, hstop, hsegment, ?_, ?_, fun hd htakes => ?_⟩
  · exact fun hhead => absurd hop (hhead _ rfl)
  · intro q hq _
    cases hq
    rw [Derivation.tokens_trail, List.getLast?_concat]
  · have hpart : left.Part (.operation o [left] []) := .left List.mem_cons_self .refl
    obtain ⟨rfl, x, rfl, rfl⟩ := hexact (hd.of_part hpart) (hd.ranked o (by simp) _ hop)
      (fun q hq => hd.obeys.keeps ⟨left, [], .refl, hq⟩) htakes
    exact ⟨[⟨⟨o, none⟩, none⟩], [x], rfl, rfl, .trail (a := ⟨⟨o, none⟩, none⟩) hop x⟩

theorem reads_join {o : Token} {left right : Derivation} (hop : g.IsOperator [.left, .right] o)
    (hleft : Reads g total left) (hright : Reads g total right) :
    Reads g total (.operation o [left] [right]) := by
  intro parameters start mid stop operators lower operands others hbase h hordered hsmooth
  rw [Derivation.tokens_join] at hordered hsmooth ⊢
  obtain ⟨mid₁, hordered, hplace, hwidth, hordered'⟩ := Ordered.append_iff.1 hordered
  rw [applyAll_append]
  refine (hleft parameters start mid mid₁ operators lower operands others hbase h hordered
    fun ht => (hsmooth ht).left).bind ?_
  rintro _ ⟨ops, xs, mid', rfl, hr⟩
  refine (apply_reached hr hbase h hop (by simp [fixities]) (by simp) hplace hwidth
    (fun ht => (hsmooth ht).right.head) fun ht q hq => (hsmooth ht).between hq).bind ?_
  rintro _ ⟨ops₂, xs₂, rfl, hsegment, hexact⟩
  refine (hright parameters start _ stop _ lower xs₂ others hbase hsegment hordered'
    fun ht => (hsmooth ht).right.tail).mono ?_
  rintro _ ⟨ops₃, xs₃, mid₃, rfl, hr₃⟩
  refine ⟨ops₃, xs₃, mid₃, rfl, hr₃.le, hr₃.segment, hr₃.fresh, fun q hq hqop => ?_,
    fun hd htakes => ?_⟩
  · rw [Derivation.tokens_join, List.getLast?_append, List.getLast?_cons, hr₃.trailing q hq hqop]
    rfl
  have hpartl : left.Part (.operation o [left] [right]) := .left List.mem_cons_self .refl
  have hpartr : right.Part (.operation o [left] [right]) := .right List.mem_cons_self .refl
  obtain ⟨rfl, x, rfl, rfl⟩ := hexact (hd.of_part hpartl) (hd.ranked o (by simp) _ hop)
    (fun q hq => hd.obeys.keeps ⟨left, [right], .refl, hq⟩) htakes
  have htakes' : ∀ q ∈ (⟨⟨o, none⟩, none⟩ :: ops₂ : List Pending).head?,
      ∀ p ∈ right.leftSpine, ¬ g.Binds q.token p := by
    intro q hq p hp
    cases hq
    exact hd.obeys.takes ⟨[x.derivation], right, .refl, hp⟩
  obtain ⟨ops', xs', rfl, rfl, hu⟩ := hr₃.unfolds (hd.of_part hpartr) htakes'
  exact ⟨ops' ++ [⟨⟨o, none⟩, none⟩], xs' ++ [x], by simp, by simp,
    .join (a := ⟨⟨o, none⟩, none⟩) hop x hu⟩

/-- Tokens that open a bracket or separate its contents just wait. -/
theorem apply_wait {s : Trace} {t : Token} (h : (g.kind t.rule).isDelimiter = true ∨ g.IsOpen t ∨
    g.IsCall t) : s.apply g t = some (s.await t) := by
  rcases h with h | h | ⟨overloads, h⟩
  · cases hk : g.kind t.rule <;> simp_all [RuleKind.isDelimiter, apply]
  · have hk : g.kind t.rule = .bracketOpen := h
    simp only [apply, hk]
  · simp only [apply, h]

/-- Behind an opening starts a segment. -/
theorem base_open {mid : Nat} {opening : Token}
    (h : Segment g total start false operators operands mid) (hbase : Base g start lower others)
    (hopen : g.IsOpen opening ∨ g.IsCall opening) (hplace : mid ≤ opening.extent.start)
    (hwidth : opening.extent.start < opening.extent.stop) :
    Base g opening.extent.stop (⟨⟨opening, none⟩, none⟩ :: (operators ++ lower))
      (operands ++ others) := by
  refine ⟨?_, le_rfl, fun x hx => ?_⟩
  · rintro a ha
    cases ha
    change (g.kind opening.rule).precedence? = none
    rcases hopen with hk | ⟨overloads, hk⟩
    · rw [show g.kind opening.rule = _ from hk]
      rfl
    · rw [hk]
      rfl
  · have := h.head_lt hbase x hx
    omega

/-- Reading what is between an opening and its close, and then closing the bracket. -/
theorem applyAll_enclosed {s : Trace} {close opening : Token} {ts : List Token}
    (hopen : g.IsOpen opening ∨ g.IsCall opening) (hcloses : g.Closes close opening) :
    s.applyAll g (opening :: ts ++ [close]) =
      ((s.await opening).applyAll g ts).bind (·.close g close) := by
  obtain ⟨opens, delimiter, hk, -⟩ := hcloses
  have hclose (s : Trace) : s.applyAll g [close] = s.close g close := by
    rw [applyAll_singleton]
    simp only [apply, hk]
  have hcons : s.applyAll g (opening :: (ts ++ [close])) =
      (s.await opening).applyAll g (ts ++ [close]) := by
    simp only [applyAll, apply_wait (.inr hopen), Option.bind_eq_bind, Option.bind_some]
  rw [List.cons_append, hcons, applyAll_append]
  exact congrArg _ (funext hclose)

theorem reads_bracket {opening close : Token} {inner : Derivation} (hlinked : g.Linked)
    (hopen : g.IsOpen opening) (hcloses : g.Closes close opening) (hinner : Reads g total inner) :
    Reads g total (.bracket opening inner close) := by
  intro parameters start mid stop operators lower operands others hbase h hordered hsmooth
  obtain ⟨opens, delimiter, hk, -⟩ := id hcloses
  obtain ⟨hplace, hwidth, hordered⟩ : mid ≤ opening.extent.start ∧
    opening.extent.start < opening.extent.stop ∧
      Ordered opening.extent.stop (inner.tokens ++ [close]) stop := hordered
  obtain ⟨mid₁, hordered, hplace', hwidth', hstop⟩ := Ordered.append_iff.1 hordered
  have hbase' := base_open h hbase (.inl hopen) hplace hwidth
  rw [Derivation.tokens, applyAll_enclosed (.inl hopen) hcloses]
  refine (hinner parameters opening.extent.stop _ mid₁ [] _ [] _ hbase' .start hordered
    fun ht => (hsmooth ht).left.tail).bind ?_
  rintro _ ⟨ops, xs, mid', rfl, hr⟩
  have hargs : Arguments g total close opening (operators ++ lower) (operands ++ others)
      (ops ++ ⟨⟨opening, none⟩, none⟩ :: (operators ++ lower)) (xs ++ (operands ++ others)) [inner]
      [] mid' := by
    refine .first hr.segment fun hd => ?_
    obtain ⟨ops', xs', rfl, rfl, hu⟩ := hr.unfolds hd (by simp)
    simpa using hu
  have hu := hargs.unwind hlinked hk hcloses hbase' [] [] (hr.le.trans hplace')
  simp only [List.append_nil] at hu
  refine (close_bracket hopen hwidth (hordered.le.trans hplace') hwidth' hu).mono ?_
  rintro _ ⟨x, rfl, hx⟩
  have hle := hordered.le
  exact ⟨operators, _, _, rfl, .of_primary h hplace (by omega) hstop hx⟩

/-- Further arguments, each behind a delimiter, may be read behind arguments. -/
theorem reads_followed {parameters : List Parameter} {close opening : Token}
    {args rest : List Derivation} {delimiters ts : List Token} {mid : Nat} (hlinked : g.Linked)
    (h : Arguments g total close opening lower others operators operands args delimiters mid)
    (hseparates : ∀ t ∈ ts, g.Separates close t) (hlength : ts.length = rest.length)
    (hrest : ∀ d ∈ rest, Reads g total d) (hordered : Ordered mid (Derivation.followed ts rest) stop)
    (hsmooth : total → g.Smooth (Derivation.followed ts rest)) :
    Ensures total (applyAll g ⟨parameters, operands, operators⟩ (Derivation.followed ts rest))
      fun s => ∃ ops xs mid', s = ⟨parameters, xs, ops⟩ ∧ mid' ≤ stop ∧
        Arguments g total close opening lower others ops xs (args ++ rest) (delimiters ++ ts) mid' := by
  induction rest generalizing operators operands args delimiters ts mid with
  | nil =>
    obtain rfl := List.length_eq_zero_iff.1 hlength
    exact .some ⟨operators, operands, mid, rfl, hordered, by simpa using h⟩
  | cons d rest ih =>
    cases ts with
    | nil => cases hlength
    | cons t ts =>
      have hsep := hseparates t List.mem_cons_self
      have hfollowed : Derivation.followed (t :: ts) (d :: rest) =
          t :: (d.tokens ++ Derivation.followed ts rest) := by simp [Derivation.followed]
      rw [hfollowed] at hordered hsmooth ⊢
      obtain ⟨hplace, hwidth, hordered⟩ := hordered
      obtain ⟨mid₁, hordered, hordered'⟩ := Ordered.append_iff.1 hordered
      have happly : applyAll g ⟨parameters, operands, operators⟩
          (t :: (d.tokens ++ Derivation.followed ts rest)) =
          (applyAll g ⟨parameters, operands, ⟨⟨t, none⟩, none⟩ :: operators⟩ d.tokens).bind
            (·.applyAll g (Derivation.followed ts rest)) := by
        rw [← applyAll_append]
        simp only [applyAll, apply_wait (.inl (hlinked.isDelimiter hsep)), Option.bind_eq_bind,
          Option.bind_some]
        rfl
      rw [happly]
      refine (hrest d List.mem_cons_self parameters _ _ mid₁ [] _ [] _
        (h.base hlinked hsep hplace hwidth) .start hordered
        fun ht => (hsmooth ht).tail.left).bind ?_
      rintro _ ⟨ops, xs, mid₂, rfl, hr⟩
      have hmore : Arguments g total close opening lower others
          (ops ++ ⟨⟨t, none⟩, none⟩ :: operators) (xs ++ operands) (args ++ [d])
          (delimiters ++ [t]) mid₂ := by
        refine .more h hsep hplace hwidth hr.segment fun hd => ?_
        obtain ⟨ops', xs', rfl, rfl, hu⟩ := hr.unfolds hd (by simp)
        simpa using hu
      have hnext := ih hmore (fun u hu => hseparates u (List.mem_cons_of_mem _ hu))
        (by simpa using hlength) (fun e he => hrest e (List.mem_cons_of_mem _ he))
        (hordered'.mono hr.le le_rfl) fun ht => (hsmooth ht).tail.right
      simpa using hnext

theorem reads_call {opening close : Token} {args : List Derivation} {delimiters : List Token}
    (hlinked : g.Linked) (hcall : g.IsCall opening) (hcloses : g.Closes close opening)
    (hseparates : ∀ t ∈ delimiters, g.Separates close t)
    (hlength : delimiters.length = args.length - 1) (hargs : ∀ d ∈ args, Reads g total d) :
    Reads g total (.call opening args delimiters close) := by
  intro parameters start mid stop operators lower operands others hbase h hordered hsmooth
  obtain ⟨opens, delimiter, hk, -⟩ := id hcloses
  have hopening (ht : total) : (g.kind opening.rule).Willing :=
    (hsmooth ht).willing opening (by cases args <;> simp [Derivation.tokens])
  cases args with
  | nil =>
    obtain rfl := List.length_eq_zero_iff.1 hlength
    obtain ⟨hplace, hwidth, hplace', hwidth', hstop⟩ : mid ≤ opening.extent.start ∧
      opening.extent.start < opening.extent.stop ∧
        opening.extent.stop ≤ close.extent.start ∧ close.extent.start < close.extent.stop ∧
          close.extent.stop ≤ stop := hordered
    rw [show (Derivation.call opening [] [] close).tokens = opening :: [] ++ [close] from rfl,
      applyAll_enclosed (.inr hcall) hcloses]
    have hnone : takeBetween? opening.extent close.extent (operands ++ others) = none := by
      cases hx : takeBetween? opening.extent close.extent (operands ++ others) with
      | none => rfl
      | some r =>
        obtain ⟨heq, hafter, -⟩ := takeBetween?_eq_some.1 hx
        have := h.head_lt hbase r.1 (by rw [heq]; rfl)
        omega
    have hu : Ensures total (unwind g (g.linksOf close.rule) close.extent [] []
        (⟨⟨opening, none⟩, none⟩ :: (operators ++ lower)) (operands ++ others))
        (Found g opening close (operators ++ lower) (operands ++ others) [] []) := by
      have hopens := (hlinked.closes hk).2 hcloses
      simp only [unwind, hopens, if_true, hnone, List.isEmpty_nil]
      exact .some ⟨[], rfl, .nil⟩
    refine (close_call hlinked hcall hopening hwidth hplace' hwidth' hu).mono ?_
    rintro _ ⟨x, rfl, hx⟩
    exact ⟨operators, _, _, rfl, .of_primary h hplace (by omega) hstop hx⟩
  | cons arg rest =>
    obtain ⟨hplace, hwidth, hordered⟩ : mid ≤ opening.extent.start ∧
      opening.extent.start < opening.extent.stop ∧ Ordered opening.extent.stop
        (arg.tokens ++ Derivation.followed delimiters rest ++ [close]) stop := hordered
    obtain ⟨mid₁, hordered, hplace', hwidth', hstop⟩ := Ordered.append_iff.1 hordered
    have hle := hordered.le
    obtain ⟨mid₂, hordered, hordered'⟩ := Ordered.append_iff.1 hordered
    have hbase' := base_open h hbase (.inr hcall) hplace hwidth
    have htokens : (Derivation.call opening (arg :: rest) delimiters close).tokens =
        opening :: (arg.tokens ++ Derivation.followed delimiters rest) ++ [close] := by
      simp [Derivation.tokens]
    rw [htokens] at hsmooth ⊢
    rw [applyAll_enclosed (.inr hcall) hcloses, applyAll_append, Option.bind_assoc]
    refine (hargs arg List.mem_cons_self parameters opening.extent.stop _ mid₂ [] _ [] _ hbase'
      .start hordered fun ht => (hsmooth ht).left.tail.left).bind ?_
    rintro _ ⟨ops, xs, mid₃, rfl, hr⟩
    have hfirst : Arguments g total close opening (operators ++ lower) (operands ++ others)
        (ops ++ ⟨⟨opening, none⟩, none⟩ :: (operators ++ lower)) (xs ++ (operands ++ others)) [arg]
        [] mid₃ := by
      refine .first hr.segment fun hd => ?_
      obtain ⟨ops', xs', rfl, rfl, hu⟩ := hr.unfolds hd (by simp)
      simpa using hu
    refine (reads_followed hlinked hfirst hseparates (by simpa using hlength)
      (fun d hd => hargs d (List.mem_cons_of_mem _ hd)) (hordered'.mono hr.le le_rfl)
      fun ht => (hsmooth ht).left.tail.right).bind ?_
    rintro _ ⟨ops', xs', mid₄, rfl, hmid, hall⟩
    have hu := hall.unwind hlinked hk hcloses hbase' [] [] (hmid.trans hplace')
    simp only [List.append_nil] at hu
    refine (close_call hlinked hcall hopening hwidth (hle.trans hplace') hwidth' hu).mono ?_
    rintro _ ⟨x, rfl, hx⟩
    exact ⟨operators, _, _, rfl, .of_primary h hplace (by omega) hstop hx⟩

/-- Every derivation that follows the rules may be read. -/
theorem reads_of_formed (hlinked : g.Linked) (h : d.Formed g) : Reads g total d := by
  induction h with
  | token h => exact reads_token h
  | lead hop _ ih => exact reads_lead hop ih
  | trail hop _ ih => exact reads_trail hop ih
  | join hop _ _ ihl ihr => exact reads_join hop ihl ihr
  | bracket hopen _ hcloses ih => exact reads_bracket hlinked hopen hcloses ih
  | call hcall _ hseparates hlength hcloses ih =>
    exact reads_call hlinked hcall hcloses hseparates hlength ih

/-- A derivation that follows the rules is accepted if its tokens are smooth; what is accepted goes by
precedences, and is the derivation if that does too. -/
theorem parse_of_smooth (parameters : List Parameter) (total : Prop) (hlinked : g.Linked)
    (h : d.Formed g) (hordered : Ordered 0 d.tokens stop) (hsmooth : total → g.Smooth d.tokens) :
    Ensures total (parse g parameters d.tokens) fun x =>
      x.derivation.Obeys g ∧ (Ruled g d → x.derivation = d) := by
  have hbase : Base g 0 [] [] := ⟨by simp, le_rfl, by simp⟩
  refine (reads_of_formed hlinked h parameters 0 0 stop [] [] [] [] hbase .start hordered
    hsmooth).bind ?_
  rintro _ ⟨ops, xs, mid, rfl, hr⟩
  have hunfolds (hd : Ruled g d) : Unfolds g d ops xs := by
    obtain ⟨ops', xs', rfl, rfl, hu⟩ := hr.unfolds hd (by simp)
    simpa using hu
  have hfinish : finish g ⟨parameters, xs ++ [], ops ++ []⟩ =
      (reduceAll g ops [] (xs ++ [])).bind sole? := by
    have hfold := @foldWhile_append g (fun _ => true) ops [] (xs ++ []) fun _ _ => rfl
    simp only [finish, fold, hfold]
    cases reduceAll g ops [] (xs ++ []) <;> rfl
  rw [hfinish]
  refine (reduceAll_unfolds hr.segment hunfolds hbase).bind ?_
  rintro _ ⟨x, rfl, hx, hd⟩
  exact .some ⟨hx.obeys, hd⟩

/-- In particular it is accepted if no builder refuses and every operator has a precedence. -/
theorem parse_of_formed (parameters : List Parameter) (total : Prop) (hlinked : g.Linked)
    (h : d.Formed g) (hordered : Ordered 0 d.tokens stop)
    (htotal : total → ∀ t ∈ d.tokens, (g.kind t.rule).Total) :
    Ensures total (parse g parameters d.tokens) fun x =>
      x.derivation.Obeys g ∧ (Ruled g d → x.derivation = d) :=
  parse_of_smooth parameters total hlinked h hordered fun ht => .of_total (htotal ht)

end Trace

end Parlance
