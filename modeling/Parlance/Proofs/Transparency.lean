import Parlance.Language.Arithmetic
import Parlance.Proofs.Scopes

/-!
# Brackets are transparent

A parse goes on top of an opening and of whatever waits below it as it goes on its own: no operator of
it takes an operand from below the opening, and no close bracket of it unwinds past it
(`ParseState.applyAll_over`). What the end of a text reduces is what the close bracket unwinds
(`unwind_of_foldWhile`). So a complete text in brackets is one operand, the expression of the text,
wherever the brackets stand (`brackets_transparent`).
-/

namespace Parlance

/-! ## Further on in the text -/

/-- The extent some bytes further on. -/
def Extent.shift (e : Extent) (d : Nat) : Extent := ⟨e.start + d, e.stop + d⟩

/-- The token some bytes further on. -/
def Token.shift (t : Token) (d : Nat) : Token := { t with extent := t.extent.shift d }

/-- The operand some bytes further on. -/
def Operand.shift (x : Operand) (d : Nat) : Operand := { x with extent := x.extent.shift d }

/-- What waits some bytes further on. -/
def Activation.shift (a : Activation) (d : Nat) : Activation := { a with token := a.token.shift d }

section Shift

variable {d : Nat}

@[simp] theorem Extent.shift_start (e : Extent) : (e.shift d).start = e.start + d := rfl

@[simp] theorem Extent.shift_stop (e : Extent) : (e.shift d).stop = e.stop + d := rfl

@[simp] theorem Token.shift_rule (t : Token) : (t.shift d).rule = t.rule := rfl

@[simp] theorem Token.shift_extent (t : Token) : (t.shift d).extent = t.extent.shift d := rfl

@[simp] theorem Operand.shift_expr (x : Operand) : (x.shift d).expr = x.expr := rfl

@[simp] theorem Operand.shift_extent (x : Operand) : (x.shift d).extent = x.extent.shift d := rfl

@[simp] theorem Activation.shift_rule (a : Activation) : (a.shift d).rule = a.rule := rfl

@[simp] theorem Activation.shift_extent (a : Activation) : (a.shift d).extent = a.extent.shift d := rfl

@[simp] theorem Activation.shift_slot (a : Activation) : (a.shift d).slot = a.slot := rfl

theorem Extent.isBetween_iff {e a b : Extent} :
    e.isBetween a b = true ↔ a.stop ≤ e.start ∧ e.stop ≤ b.start := by
  simp [isBetween]

@[simp] theorem Extent.isBetween_shift (e a b : Extent) :
    (e.shift d).isBetween (a.shift d) (b.shift d) = e.isBetween a b := by
  simp [isBetween]

@[simp] theorem Extent.cover_shift (a b : Extent) :
    (a.shift d).cover (b.shift d) = (a.cover b).shift d := by
  simp [cover, shift, Nat.add_min_add_right, Nat.add_max_add_right]

@[simp] theorem Extent.gap_shift (a b : Extent) : (a.shift d).gap (b.shift d) = (a.gap b).shift d := by
  simp [gap, shift, Nat.add_max_add_right]

@[simp] theorem Extent.coverAll_shift (a : Extent) (es : List Extent) :
    (a.shift d).coverAll (es.map (·.shift d)) = (a.coverAll es).shift d := by
  induction es generalizing a with
  | nil => rfl
  | cons e es ih => simpa [coverAll] using ih (a.cover e)

theorem map_extent_shift (xs : List Operand) :
    (xs.map (·.shift d)).map Operand.extent = (xs.map Operand.extent).map (·.shift d) := by
  simp

theorem map_expr_shift (xs : List Operand) :
    (xs.map (·.shift d)).map Operand.expr = xs.map Operand.expr := by
  simp

theorem Operand.coverAll_shift {xs : List Operand} (h : xs.isEmpty = false) :
    Operand.coverAll (xs.map (·.shift d)) = (Operand.coverAll xs).shift d := by
  cases xs with
  | nil => cases h
  | cons x xs =>
    simp only [Operand.coverAll, List.map_cons, shift_extent, map_extent_shift, Extent.coverAll_shift]

theorem Operand.arrange_shift (positions : List Side) (left right : List Operand) :
    Operand.arrange positions (left.map (·.shift d)) (right.map (·.shift d)) =
      (Operand.arrange positions left right).map (·.shift d) := by
  fun_induction Operand.arrange positions left right <;> simp_all [Operand.arrange]

end Shift

/-! ## Bounds -/

/-- The extent is not empty and lies between two offsets. -/
structure Extent.Between (lo hi : Nat) (e : Extent) : Prop where
  lower : lo ≤ e.start
  width : e.start < e.stop
  upper : e.stop ≤ hi

namespace Extent.Between

variable {lo hi : Nat} {a b : Extent}

theorem cover (ha : a.Between lo hi) (hlo : lo ≤ b.start) (hhi : b.stop ≤ hi) :
    (a.cover b).Between lo hi := by
  obtain ⟨h1, h2, h3⟩ := ha
  constructor <;> simp only [Extent.cover] <;> omega

theorem coverAll {es : List Extent} (ha : a.Between lo hi) (hes : ∀ e ∈ es, e.Between lo hi) :
    (a.coverAll es).Between lo hi := by
  induction es generalizing a with
  | nil => exact ha
  | cons e es ih =>
    obtain ⟨he, hes⟩ := List.forall_mem_cons.1 hes
    exact ih (ha.cover he.lower he.upper) hes

end Extent.Between

/-- Everything on the two stacks lies between two offsets. -/
structure Bounded (lo hi : Nat) (operators : List Activation) (operands : List Operand) : Prop where
  operators : ∀ a ∈ operators, a.extent.Between lo hi
  operands : ∀ x ∈ operands, x.extent.Between lo hi

namespace Bounded

variable {g : Grammar} {lo hi : Nat} {operators operators' : List Activation}
  {operands results : List Operand} {top : Activation} {below : List Activation}

theorem reduce (h : Bounded lo hi (top :: below) operands)
    (hr : Parlance.reduce g top below operands = .ok results) : Bounded lo hi below results := by
  obtain ⟨htop, hbelow⟩ := List.forall_mem_cons.1 h.operators
  refine ⟨hbelow, ?_⟩
  cases reduce_eq_ok.1 hr with
  | @operation positions _ _ left right rest expr _ split =>
    have hmem {x : Operand} (hx : x ∈ left ∨ x ∈ right ∨ x ∈ rest) : x ∈ operands := by
      rw [split.stack_eq]
      simpa [or_left_comm] using hx
    refine List.forall_mem_cons.2 ⟨htop.coverAll fun e he => ?_, fun x hx =>
      h.operands x (hmem (.inr (.inr hx)))⟩
    obtain ⟨x, hx, rfl⟩ := List.mem_map.1 he
    exact h.operands x (hmem ((mem_arrange hx).imp_right .inl))
  | inert => exact h.operands

theorem foldWhile {folds : RuleKind → Bool} (h : Bounded lo hi operators operands)
    (hf : Parlance.foldWhile g folds operators operands = .ok (operators', results)) :
    Bounded lo hi operators' results := by
  induction operators generalizing operands with
  | nil =>
    cases hf
    exact h
  | cons top below ih =>
    unfold Parlance.foldWhile at hf
    split at hf
    · obtain ⟨next, hr, hf⟩ := bind_eq_ok.1 hf
      exact ih (h.reduce hr) hf
    · cases hf
      exact h

theorem unwind {links : BracketLinks} {close previous : Extent} {separated : Bool}
    {contents : List Operand} {u : Unwound} (h : Bounded lo hi operators operands)
    (hc : ∀ x ∈ contents, x.extent.Between lo hi)
    (hu : Parlance.unwind g links close previous separated contents operators operands = .ok u) :
    u.top.extent.Between lo hi ∧ Bounded lo hi u.operators u.operands ∧
      ∀ x ∈ u.contents, x.extent.Between lo hi := by
  induction operators generalizing previous separated contents operands with
  | nil => simp [Parlance.unwind] at hu
  | cons top below ih =>
    obtain ⟨htop, hbelow⟩ := List.forall_mem_cons.1 h.operators
    have htake {b : Extent} {x : Operand} {rest : List Operand}
        (ht : takeBetween? top.extent b operands = some (x, rest)) :
        x.extent.Between lo hi ∧ Bounded lo hi below rest := by
      obtain rfl := eq_cons_of_takeBetween? ht
      obtain ⟨hx, hrest⟩ := List.forall_mem_cons.1 h.operands
      exact ⟨hx, hbelow, hrest⟩
    unfold Parlance.unwind at hu
    dsimp only at hu
    split at hu
    · split at hu
      · rename_i ht
        cases hu
        exact ⟨htop, (htake ht).2, List.forall_mem_cons.2 ⟨(htake ht).1, hc⟩⟩
      · split at hu
        · simp at hu
        · cases hu
          exact ⟨htop, ⟨hbelow, h.operands⟩, hc⟩
    split at hu
    · split at hu
      · rename_i ht
        exact ih (htake ht).2 (List.forall_mem_cons.2 ⟨(htake ht).1, hc⟩) hu
      · simp at hu
    · obtain ⟨results, hr, hu⟩ := bind_eq_ok.1 hu
      exact ih (h.reduce hr) hc hu

end Bounded

/-! ## Steps above an opening -/

/-- A state on top of an opening that waits on another state, some bytes further on. -/
def ParseState.over (f : ParseState) (d : Nat) (opening : Token) (s : ParseState) : ParseState :=
  ⟨f.parameters, f.operands.map (·.shift d) ++ s.operands,
    f.operators.map (·.shift d) ++ ⟨opening, none⟩ :: s.operators⟩

/-- An opening behind all operands of a state, and stacks between offsets that are shifted behind it. -/
structure Clear (d lo : Nat) (opening : Token) (operands : List Operand) : Prop where
  behind : opening.extent.stop ≤ lo + d
  below : ∀ x ∈ operands, x.extent.start < opening.extent.stop

section Over

variable {g : Grammar} {d lo hi : Nat} {opening : Token} {lower : List Activation}
  {rest : List Operand} {top : Activation} {below operators operators' : List Activation}
  {operands results : List Operand}

/-- The operands below an opening are none that something behind the opening asks for. -/
theorem Clear.start_lt (hclear : Clear d lo opening rest) {x : Operand} (hx : x ∈ rest) {e : Extent}
    (he : e.Between lo hi) : x.extent.start < (e.shift d).stop := by
  have := hclear.below x hx
  have := hclear.behind
  have := he.lower
  have := he.width
  simp only [Extent.shift_stop]
  omega

theorem reduce_over (hclear : Clear d lo opening rest) (h : Bounded lo hi (top :: below) operands)
    (hr : reduce g top below operands = .ok results) :
    reduce g (top.shift d) (below.map (·.shift d) ++ ⟨opening, none⟩ :: lower)
      (operands.map (·.shift d) ++ rest) = .ok (results.map (·.shift d) ++ rest) := by
  obtain ⟨htop, hbelow⟩ := List.forall_mem_cons.1 h.operators
  rw [reduce_eq_ok] at hr ⊢
  cases hr with
  | @operation positions precedence build left right remaining expr kind split built =>
    have hleft {x : Operand} (hx : x ∈ left) : x ∈ operands := by
      rw [split.stack_eq]
      simp [hx]
    have hsplit : Split Operand.extent (top.shift d).extent positions
        (boundaryOf (below.map (·.shift d) ++ ⟨opening, none⟩ :: lower))
        (operands.map (·.shift d) ++ rest) (left.map (·.shift d)) (right.map (·.shift d))
        (remaining.map (·.shift d) ++ rest) := by
      refine ⟨?_, ?_, ?_, ?_, ?_, ?_⟩
      · rw [split.stack_eq]
        simp
      · simpa using split.length_right
      · simpa using split.length_left
      · intro y hy
        obtain ⟨x, hx, rfl⟩ := List.mem_map.1 hy
        simpa using split.after x hx
      · intro y hy
        rw [← List.append_assoc, ← List.map_reverse, ← List.map_append] at hy
        cases hstack : left.reverse ++ remaining with
        | nil =>
          rw [hstack] at hy
          exact hclear.start_lt (List.mem_of_head? hy) htop
        | cons x xs =>
          rw [hstack] at hy
          cases hy
          simpa using split.before x (by rw [hstack]; rfl)
      · intro y hy
        obtain ⟨x, hx, rfl⟩ := List.mem_map.1 hy
        cases below with
        | nil =>
          have := (h.operands x (hleft hx)).lower
          have := hclear.behind
          change opening.extent.stop ≤ x.extent.start + d
          omega
        | cons b below => simpa [boundaryOf] using split.inside x hx
    have hbuilt : build (top.shift d).token.text ((Operand.arrange positions (left.map (·.shift d))
        (right.map (·.shift d))).map Operand.expr) = .ok expr := by
      rw [Operand.arrange_shift, map_expr_shift]
      exact built
    have hresult := @Reduced.operation g (top.shift d) _ _ _ _ _ _ _ _ _ kind hsplit hbuilt
    rw [Operand.arrange_shift, map_extent_shift] at hresult
    rwa [Activation.shift_extent, Extent.coverAll_shift] at hresult
  | inert kind => exact .inert kind

/-- Reductions stop at an opening. -/
theorem foldWhile_over {folds : RuleKind → Bool} (hclear : Clear d lo opening rest)
    (hstop : folds (g.kind opening.rule) = false) (h : Bounded lo hi operators operands)
    (hf : foldWhile g folds operators operands = .ok (operators', results)) :
    foldWhile g folds (operators.map (·.shift d) ++ ⟨opening, none⟩ :: lower)
        (operands.map (·.shift d) ++ rest) =
      .ok (operators'.map (·.shift d) ++ ⟨opening, none⟩ :: lower,
        results.map (·.shift d) ++ rest) := by
  induction operators generalizing operands with
  | nil =>
    cases hf
    simp [foldWhile, hstop]
  | cons top below ih =>
    unfold foldWhile at hf
    rw [List.map_cons, List.cons_append, foldWhile]
    split at hf
    · rename_i hfolds
      obtain ⟨next, hr, hf⟩ := bind_eq_ok.1 hf
      rw [if_pos (by simpa using hfolds), reduce_over hclear h hr]
      exact ih (h.reduce hr) hf
    · rename_i hfolds
      cases hf
      rw [if_neg (by simpa using hfolds)]
      rfl

theorem takeBetween?_over {a b : Extent} (hclear : Clear d lo opening rest) (ha : a.Between lo hi) :
    takeBetween? (a.shift d) (b.shift d) (operands.map (·.shift d) ++ rest) =
      (takeBetween? a b operands).map fun (x, xs) => (x.shift d, xs.map (·.shift d) ++ rest) := by
  cases operands with
  | nil =>
    cases rest with
    | nil => rfl
    | cons y rest =>
      have hlt := hclear.start_lt List.mem_cons_self ha
      have houtside : y.extent.isBetween (a.shift d) (b.shift d) = false := by
        simp only [Extent.isBetween, Bool.and_eq_false_iff, decide_eq_false_iff_not]
        exact .inl (Nat.not_le_of_lt hlt)
      simp [takeBetween?, houtside]
  | cons x operands =>
    simp only [List.map_cons, List.cons_append, takeBetween?, Operand.shift_extent,
      Extent.isBetween_shift]
    split <;> rfl

theorem unwind_over {links : BracketLinks} {close previous : Extent} {separated : Bool}
    {contents : List Operand} {u : Unwound} (hclear : Clear d lo opening rest)
    (h : Bounded lo hi operators operands)
    (hu : unwind g links close previous separated contents operators operands = .ok u) :
    unwind g links (close.shift d) (previous.shift d) separated (contents.map (·.shift d))
        (operators.map (·.shift d) ++ ⟨opening, none⟩ :: lower) (operands.map (·.shift d) ++ rest) =
      .ok ⟨u.top.shift d, u.contents.map (·.shift d),
        u.operators.map (·.shift d) ++ ⟨opening, none⟩ :: lower,
        u.operands.map (·.shift d) ++ rest⟩ := by
  induction operators generalizing previous separated contents operands with
  | nil => simp [unwind] at hu
  | cons top below ih =>
    obtain ⟨htop, hbelow⟩ := List.forall_mem_cons.1 h.operators
    unfold unwind at hu
    rw [List.map_cons, List.cons_append, unwind]
    dsimp only at hu ⊢
    rw [Activation.shift_extent, takeBetween?_over hclear htop, Activation.shift_rule]
    split at hu
    · rename_i hopens
      rw [if_pos hopens]
      split at hu
      · rename_i x remaining ht
        cases hu
        rw [ht]
        rfl
      · rename_i ht
        split at hu
        · simp at hu
        · rename_i hseparated
          cases hu
          rw [ht]
          simp [hseparated]
    rename_i hopens
    rw [if_neg hopens]
    split at hu
    · rename_i hdelimiter
      rw [if_pos hdelimiter]
      split at hu
      · rename_i x remaining ht
        obtain rfl := eq_cons_of_takeBetween? ht
        rw [ht]
        exact ih ⟨hbelow, (List.forall_mem_cons.1 h.operands).2⟩ hu
      · simp at hu
    · rename_i hdelimiter
      obtain ⟨results, hr, hu⟩ := bind_eq_ok.1 hu
      rw [if_neg hdelimiter, reduce_over hclear h hr]
      exact ih (h.reduce hr) hu

end Over

/-! ## Calls and contents -/

section Contents

variable {d : Nat}

/-- Arguments are converted by their expressions. -/
theorem convertArgs_shift {contents : List Operand} {types : List ValueType}
    {r : Except Mistyped (List Expr)} (h : convertArgs contents types = .ok r) :
    convertArgs (contents.map (·.shift d)) types =
      .ok (r.mapError fun m => ⟨m.operand.shift d, m.expected⟩) := by
  induction contents generalizing types r with
  | nil =>
    cases h
    rfl
  | cons x contents ih =>
    cases types with
    | nil =>
      cases h
      rfl
    | cons type types =>
      rw [List.map_cons]
      unfold convertArgs at h ⊢
      rw [Operand.shift_expr]
      split at h
      · obtain ⟨others, ho, h⟩ := bind_eq_ok.1 h
        cases h
        rw [ih ho]
        cases others <;> rfl
      · cases h
        rfl
      · simp at h
      · simp at h

theorem Overload.convert_shift {o : Overload} {contents : List Operand}
    {r : Except Mistyped (List Expr)} (h : o.convert contents = .ok r) :
    o.convert (contents.map (·.shift d)) =
      .ok (r.mapError fun m => ⟨m.operand.shift d, m.expected⟩) := by
  unfold Overload.convert at h ⊢
  split at h
  · exact convertArgs_shift h
  · cases h
    rw [map_expr_shift]
    rfl

theorem callFirst_shift {contents : List Operand} {opening args opening' args' : Extent}
    {single : Bool} {candidates : List Overload} {expr : Expr}
    (h : callFirst contents opening args single candidates = .ok expr) :
    callFirst (contents.map (·.shift d)) opening' args' single candidates = .ok expr := by
  induction candidates with
  | nil => simp [callFirst] at h
  | cons o candidates ih =>
    obtain ⟨r, hr, h⟩ := bind_eq_ok.1 h
    refine bind_eq_ok.2 ⟨_, Overload.convert_shift hr, ?_⟩
    cases r with
    | ok exprs => exact checked_eq_ok.2 (checked_eq_ok.1 h)
    | error m =>
      simp only [Except.mapError] at h ⊢
      split at h
      · simp at h
      · rename_i hsingle
        rw [if_neg hsingle]
        exact ih h

theorem callFunction_shift {overloads : List Overload} {contents : List Operand}
    {opening close : Extent} {result : Operand}
    (h : callFunction overloads contents opening close = .ok result) :
    callFunction overloads (contents.map (·.shift d)) (opening.shift d) (close.shift d) =
      .ok (result.shift d) := by
  have hargs : (if (contents.map (·.shift d)).isEmpty then (opening.shift d).gap (close.shift d)
      else Operand.coverAll (contents.map (·.shift d))) =
        (if contents.isEmpty then opening.gap close else Operand.coverAll contents).shift d := by
    rw [List.isEmpty_map]
    split
    · exact Extent.gap_shift opening close
    · rename_i hne
      exact Operand.coverAll_shift (Bool.not_eq_true _ ▸ hne)
  unfold callFunction at h ⊢
  dsimp only at h ⊢
  rw [hargs, List.length_map]
  split at h
  · simp at h
  · obtain ⟨expr, hfirst, h⟩ := bind_eq_ok.1 h
    cases h
    refine bind_eq_ok.2 ⟨expr, callFirst_shift hfirst, ?_⟩
    simp [pure, Except.pure, Operand.shift]

end Contents

/-! ## Tokens -/

/-- What is reduced before a token of a kind waits. -/
def RuleKind.foldsBefore : RuleKind → RuleKind → Bool
  | operator positions (some precedence) _ =>
    if positions.contains .left then yieldsTo precedence else fun _ => false
  | collectionBracket _ => isComplete
  | _ => fun _ => false

theorem foldsBefore_bracketOpen (k : RuleKind) : k.foldsBefore .bracketOpen = false := by
  unfold RuleKind.foldsBefore
  split
  · split <;> rfl
  · rfl
  · rfl

namespace ParseState

variable {g : Grammar} {s f f' : ParseState} {t opening : Token} {d lo hi : Nat}

theorem foldWhile_false : s.foldWhile g (fun _ => false) = .ok s := by
  cases s with
  | mk parameters operands operators => cases operators <;> rfl

/-- Tokens that wait first reduce what gives way to them. -/
theorem apply_of_waits (h : (g.kind t.rule).isInert = false) :
    s.apply g t = s.foldWhile g (g.kind t.rule).foldsBefore >>= fun s => pure (s.await t) := by
  unfold apply
  cases hk : g.kind t.rule with
  | operator positions precedence build =>
    cases precedence with
    | none => simp [RuleKind.foldsBefore, foldWhile_false, bind, Except.bind]
    | some precedence =>
      dsimp only [RuleKind.foldsBefore]
      split
      · rfl
      · rw [foldWhile_false]
  | collectionBracket build => rfl
  | bracketOpen => simp [RuleKind.foldsBefore, foldWhile_false, bind, Except.bind, pure, Except.pure]
  | functionCall overloads =>
    simp [RuleKind.foldsBefore, foldWhile_false, bind, Except.bind, pure, Except.pure]
  | listDelimiter =>
    simp [RuleKind.foldsBefore, foldWhile_false, bind, Except.bind, pure, Except.pure]
  | _ =>
    rw [hk] at h
    cases h

theorem foldWhile_eq_ok {folds : RuleKind → Bool} : s.foldWhile g folds = .ok f ↔
    f.parameters = s.parameters ∧
      Parlance.foldWhile g folds s.operators s.operands = .ok (f.operators, f.operands) := by
  rw [foldWhile, bind_eq_ok]
  constructor
  · rintro ⟨r, hr, h⟩
    cases h
    exact ⟨rfl, hr⟩
  · rintro ⟨hp, h⟩
    exact ⟨_, h, by rw [← hp]; rfl⟩

theorem close_eq_ok : s.close g t = .ok f ↔ ∃ u,
    unwind g (g.linksOf t.rule) t.extent t.extent false [] s.operators s.operands = .ok u ∧
      Enclosed g ⟨s.parameters, u.operands, u.operators⟩ u.top u.contents t.extent f := by
  rw [close, bind_eq_ok]
  exact exists_congr fun u => and_congr_right fun _ => applyContents_eq_ok

end ParseState

/-- What a call makes lies where its bracket does. -/
theorem between_of_called {overloads : List Overload} {contents : List Operand}
    {opening close : Extent} {result : Operand} {lo hi : Nat}
    (h : Called overloads contents opening close result) (hopening : opening.Between lo hi)
    (hclose : close.Between lo hi) (hcontents : ∀ x ∈ contents, x.extent.Between lo hi) :
    result.extent.Between lo hi := by
  cases h with
  | intro =>
    refine Extent.Between.cover ?_ hclose.lower hclose.upper
    split
    · have := hopening.lower
      have := hopening.width
      have := hopening.upper
      have := hclose.width
      have := hclose.upper
      refine hopening.cover ?_ ?_ <;> simp only [Extent.gap] <;> omega
    · cases contents with
      | nil => simp at *
      | cons x contents =>
        obtain ⟨hx, hcontents⟩ := List.forall_mem_cons.1 hcontents
        have hall : (Operand.coverAll (x :: contents)).Between lo hi := hx.coverAll fun e he => by
          obtain ⟨y, hy, rfl⟩ := List.mem_map.1 he
          exact hcontents y hy
        exact hopening.cover hall.lower hall.upper

namespace Bounded

variable {g : Grammar} {s s' : ParseState} {t : Token} {lo hi : Nat}

theorem enclosed {u : Unwound} {close : Extent} {parameters : List Parameter}
    (htop : u.top.extent.Between lo hi) (h : Bounded lo hi u.operators u.operands)
    (hcontents : ∀ x ∈ u.contents, x.extent.Between lo hi) (hclose : close.Between lo hi)
    (he : Enclosed g ⟨parameters, u.operands, u.operators⟩ u.top u.contents close s') :
    Bounded lo hi s'.operators s'.operands := by
  cases he with
  | call _ called =>
    have hresult := between_of_called (called_of_callFunction called) htop hclose hcontents
    exact ⟨h.operators, List.forall_mem_cons.2 ⟨hresult, h.operands⟩⟩
  | @collection build source rest element expr _ _ hs =>
    have hoperands := h.operands
    rw [show u.operands = source :: rest from hs] at hoperands
    obtain ⟨hsource, hrest⟩ := List.forall_mem_cons.1 hoperands
    have hresult := (hsource.cover htop.lower htop.upper).cover hclose.lower hclose.upper
    exact ⟨h.operators, List.forall_mem_cons.2 ⟨hresult, hrest⟩⟩
  | bracket _ single =>
    rw [single] at hcontents
    have hinner := List.forall_mem_singleton.1 hcontents
    have hresult := (htop.cover hinner.lower hinner.upper).cover hclose.lower hclose.upper
    exact ⟨h.operators, List.forall_mem_cons.2 ⟨hresult, h.operands⟩⟩

/-- A token adds nothing beyond its own place. -/
theorem apply (h : Bounded lo hi s.operators s.operands) (ht : t.extent.Between lo hi)
    (ha : s.apply g t = .ok s') : Bounded lo hi s'.operators s'.operands := by
  cases hk : (g.kind t.rule).isInert with
  | false =>
    rw [ParseState.apply_of_waits hk] at ha
    obtain ⟨s₁, hf, ha⟩ := bind_eq_ok.1 ha
    cases ha
    have hfolded := h.foldWhile (ParseState.foldWhile_eq_ok.1 hf).2
    exact ⟨List.forall_mem_cons.2 ⟨ht, hfolded.operators⟩, hfolded.operands⟩
  | true =>
    unfold ParseState.apply at ha
    split at ha
    · cases ha
      exact h
    · obtain ⟨expr, -, ha⟩ := bind_eq_ok.1 ha
      cases ha
      exact ⟨h.operators, List.forall_mem_cons.2 ⟨ht, h.operands⟩⟩
    · simp_all [RuleKind.isInert]
    · simp_all [RuleKind.isInert]
    · simp_all [RuleKind.isInert]
    · simp_all [RuleKind.isInert]
    · simp_all [RuleKind.isInert]
    · cases declareAccessor_eq_ok.1 ha with
      | intro operators =>
        obtain ⟨htop, hbelow⟩ := List.forall_mem_cons.1 (operators ▸ h.operators)
        exact ⟨List.forall_mem_cons.2 ⟨htop, hbelow⟩, h.operands⟩
    · obtain ⟨u, hu, he⟩ := ParseState.close_eq_ok.1 ha
      obtain ⟨htop, hunwound, hcontents⟩ := h.unwind (by simp) hu
      exact enclosed htop hunwound hcontents ht he

theorem applyAll {ts : List Token} (h : Bounded lo hi s.operators s.operands)
    (hts : ∀ t ∈ ts, t.extent.Between lo hi) (ha : s.applyAll g ts = .ok s') :
    Bounded lo hi s'.operators s'.operands := by
  induction ts generalizing s with
  | nil =>
    cases ha
    exact h
  | cons t ts ih =>
    obtain ⟨ht, hts⟩ := List.forall_mem_cons.1 hts
    obtain ⟨s₁, h₁, ha⟩ := bind_eq_ok.1 ha
    exact ih (h.apply ht h₁) hts ha

end Bounded

/-- Tokens that follow one another lie between the offsets. -/
theorem Ordered.between {lo hi : Nat} {ts : List Token} (h : Ordered lo ts hi) :
    ∀ t ∈ ts, t.extent.Between lo hi :=
  fun _ ht => ⟨(h.mem ht).1, (h.mem ht).2.1, (h.mem ht).2.2⟩

/-! ## Runs above an opening -/

section Runs

variable {g : Grammar} {d lo hi : Nat} {opening : Token} {s f f' : ParseState} {t : Token}

theorem enclosed_over {top : Activation} {contents : List Operand} {close : Extent}
    (h : Enclosed g f top contents close f') :
    Enclosed g (f.over d opening s) (top.shift d) (contents.map (·.shift d)) (close.shift d)
      (f'.over d opening s) := by
  cases h with
  | call kind called => exact .call kind (callFunction_shift called)
  | @collection build source rest element expr kind single operands before element_eq built =>
    have hresult := @Enclosed.collection g (f.over d opening s) (top.shift d)
      (contents.map (·.shift d)) (close.shift d) build (source.shift d)
      (rest.map (·.shift d) ++ s.operands) element expr kind (by simpa using single)
      (by rw [ParseState.over, operands]; rfl) (by simpa using before) element_eq
      (by rw [List.head?_map, Option.map_map]; exact built)
    simpa [ParseState.over, Operand.shift] using hresult
  | @bracket inner kind single =>
    have hresult := @Enclosed.bracket g (f.over d opening s) (top.shift d) (contents.map (·.shift d))
      (close.shift d) (inner.shift d) kind (by rw [single]; rfl)
    simpa [ParseState.over, ParseState.pushOperand, Operand.shift] using hresult

/-- A token does above an opening what it does on its own. -/
theorem ParseState.apply_over (hopen : g.IsOpen opening) (hclear : Clear d lo opening s.operands)
    (h : Bounded lo hi f.operators f.operands) (ha : f.apply g t = .ok f') :
    (f.over d opening s).apply g (t.shift d) = .ok (f'.over d opening s) := by
  cases hk : (g.kind t.rule).isInert with
  | false =>
    rw [apply_of_waits hk] at ha
    rw [@apply_of_waits g _ (t.shift d) hk]
    obtain ⟨f₁, hf, ha⟩ := bind_eq_ok.1 ha
    cases ha
    obtain ⟨hparameters, hf⟩ := foldWhile_eq_ok.1 hf
    have hstop : (g.kind t.rule).foldsBefore (g.kind opening.rule) = false := by
      rw [hopen]
      exact foldsBefore_bracketOpen _
    refine bind_eq_ok.2 ⟨f₁.over d opening s, foldWhile_eq_ok.2 ⟨hparameters, ?_⟩, rfl⟩
    exact foldWhile_over hclear hstop h hf
  | true =>
    unfold apply at ha ⊢
    rw [Token.shift_rule]
    split at ha
    · cases ha
      rfl
    · obtain ⟨expr, hbuild, ha⟩ := bind_eq_ok.1 ha
      cases ha
      exact bind_eq_ok.2 ⟨expr, checked_eq_ok.2 (checked_eq_ok.1 hbuild), rfl⟩
    · simp_all [RuleKind.isInert]
    · simp_all [RuleKind.isInert]
    · simp_all [RuleKind.isInert]
    · simp_all [RuleKind.isInert]
    · simp_all [RuleKind.isInert]
    · rw [declareAccessor_eq_ok] at ha ⊢
      cases ha with
      | @intro top below source rest build element operators kind unnamed operands before outside
          element_eq fresh =>
        exact @Named.intro g (f.over d opening s) (t.shift d) (top.shift d)
          (below.map (·.shift d) ++ ⟨opening, none⟩ :: s.operators) (source.shift d)
          (rest.map (·.shift d) ++ s.operands) build element (by rw [ParseState.over, operators]; rfl) kind
          unnamed (by rw [ParseState.over, operands]; rfl) (by simpa using before) (by simpa using outside)
          element_eq fresh
    · obtain ⟨u, hu, he⟩ := close_eq_ok.1 ha
      exact close_eq_ok.2 ⟨_, unwind_over hclear h hu, enclosed_over he⟩

/-- A run goes above an opening as it does on its own. -/
theorem ParseState.applyAll_over {ts : List Token} (hopen : g.IsOpen opening)
    (hclear : Clear d lo opening s.operands) (h : Bounded lo hi f.operators f.operands)
    (hts : ∀ t ∈ ts, t.extent.Between lo hi) (ha : f.applyAll g ts = .ok f') :
    (f.over d opening s).applyAll g (ts.map (·.shift d)) = .ok (f'.over d opening s) := by
  induction ts generalizing f with
  | nil =>
    cases ha
    rfl
  | cons t ts ih =>
    obtain ⟨ht, hts⟩ := List.forall_mem_cons.1 hts
    obtain ⟨f₁, h₁, ha⟩ := bind_eq_ok.1 ha
    exact bind_eq_ok.2 ⟨_, apply_over hopen hclear h h₁, ih (h.apply ht h₁) hts ha⟩

end Runs

/-! ## Closing -/

section Closing

variable {g : Grammar} {d lo hi : Nat} {opening close : Token} {opens : List String}
  {delimiter : Option String} {lower operators operators' : List Activation}
  {rest operands results : List Operand} {top : Activation} {below : List Activation} {x : Operand}

/-- What can be reduced is neither a bracket nor a delimiter that a close bracket looks for. -/
theorem not_linked_of_reduce (hlinked : g.Linked)
    (hclose : g.kind close.rule = .bracketClose opens delimiter)
    (hr : reduce g top below operands = .ok results) :
    (g.linksOf close.rule).opens.contains top.rule = false ∧
      (g.linksOf close.rule).delimiter ≠ some top.rule := by
  have hkind : (g.kind top.rule).isOpen = false ∧ (g.kind top.rule).isDelimiter = false := by
    cases reduce_eq_ok.1 hr with
    | operation kind => rw [kind]; exact ⟨rfl, rfl⟩
    | inert kind => cases hk : g.kind top.rule <;> simp_all [RuleKind.isInert] <;> exact ⟨rfl, rfl⟩
  constructor
  · rw [Bool.eq_false_iff]
    intro h
    have := hlinked.isOpen ((hlinked.closes hclose).1 h)
    rw [hkind.1] at this
    cases this
  · intro h
    have := hlinked.isDelimiter ((hlinked.separates hclose).1 h)
    rw [hkind.2] at this
    cases this

/-- What the end of a text reduces to one operand, a close bracket unwinds to that operand. -/
theorem unwind_of_foldWhile (hlinked : g.Linked)
    (hclose : g.kind close.rule = .bracketClose opens delimiter) (hcloses : g.Closes close opening)
    (hclear : Clear d lo opening rest) (h : Bounded lo hi operators operands)
    (hhi : hi + d ≤ close.extent.start)
    (hf : foldWhile g (fun _ => true) operators operands = .ok (operators', [x])) :
    unwind g (g.linksOf close.rule) close.extent close.extent false []
        (operators.map (·.shift d) ++ ⟨opening, none⟩ :: lower) (operands.map (·.shift d) ++ rest) =
      .ok ⟨⟨opening, none⟩, [x.shift d], lower, rest⟩ := by
  induction operators generalizing operands with
  | nil =>
    cases hf
    have hx := List.forall_mem_singleton.1 h.operands
    have hlower := hx.lower
    have hupper := hx.upper
    have hbehind := hclear.behind
    have hbetween : (x.shift d).extent.isBetween opening.extent close.extent = true := by
      rw [Extent.isBetween_iff, Operand.shift_extent, Extent.shift_start, Extent.shift_stop]
      omega
    rw [List.map_nil, List.nil_append, unwind, if_pos ((hlinked.closes hclose).2 hcloses)]
    simp only [List.map_cons, List.map_nil, List.cons_append, List.nil_append, takeBetween?]
    rw [if_pos hbetween]
  | cons top below ih =>
    obtain ⟨next, hr, hf⟩ := bind_eq_ok.1 hf
    obtain ⟨hopens, hdelimiter⟩ := not_linked_of_reduce hlinked hclose hr
    rw [List.map_cons, List.cons_append, unwind, Activation.shift_rule,
      if_neg (Bool.eq_false_iff.1 hopens), if_neg hdelimiter, reduce_over hclear h hr]
    exact ih (h.reduce hr) hf

end Closing

theorem ParseState.finish_eq_ok {g : Grammar} {s : ParseState} {e : Expr} :
    s.finish g = .ok e ↔ ∃ operators x,
      Parlance.foldWhile g (fun _ => true) s.operators s.operands = .ok (operators, [x]) ∧ x.expr = e := by
  rw [finish, bind_eq_ok]
  constructor
  · rintro ⟨s', hf, h⟩
    obtain ⟨-, hf⟩ := foldWhile_eq_ok.1 hf
    split at h
    · simp at h
    · rename_i x hx
      cases h
      exact ⟨_, x, hx ▸ hf, rfl⟩
    · simp at h
  · rintro ⟨operators, x, hf, rfl⟩
    exact ⟨⟨s.parameters, [x], operators⟩, foldWhile_eq_ok.2 ⟨rfl, hf⟩, rfl⟩

/-- Tokens that make an expression on their own make it between brackets, above a state whose operands start
before these. -/
theorem ParseState.applyAll_bracketed {g : Grammar} (hlinked : g.Linked) {ts : List Token} {lo hi d : Nat}
    {s f : ParseState} {e : Expr} {opening close : Token}
    (hbelow : ∀ x ∈ s.operands, x.extent.start < opening.extent.stop) (hts : Ordered lo ts hi)
    (hf : (start s.parameters).applyAll g ts = .ok f) (he : f.finish g = .ok e)
    (hopen : g.IsOpen opening) (hcloses : g.Closes close opening)
    (hwidth : opening.extent.start < opening.extent.stop) (hlo : opening.extent.stop ≤ lo + d)
    (hhi : hi + d ≤ close.extent.start) (hwidth' : close.extent.start < close.extent.stop) :
    s.applyAll g (opening :: ts.map (·.shift d) ++ [close]) =
      .ok (s.pushOperand ⟨e, ⟨opening.extent.start, close.extent.stop⟩⟩) := by
  have hclear : Clear d lo opening s.operands := ⟨hlo, hbelow⟩
  have hempty : Bounded lo hi [] [] := ⟨by simp, by simp⟩
  have hbounded := hempty.applyAll hts.between hf
  -- The opening waits, and the tokens are read above it.
  have hawait : s.apply g opening = .ok ((start s.parameters).over d opening s) := by
    unfold ParseState.apply
    rw [show g.kind opening.rule = .bracketOpen from hopen]
    rfl
  have hrun := applyAll_over hopen hclear hempty hts.between hf
  -- The close bracket finds what the end of the tokens would leave.
  obtain ⟨operators, x, hfold, rfl⟩ := finish_eq_ok.1 he
  obtain ⟨opens, delimiter, hclose, -⟩ := id hcloses
  have hunwind := @unwind_of_foldWhile _ _ _ _ _ _ _ _ s.operators _ _ _ _ _ hlinked hclose hcloses
    hclear hbounded hhi hfold
  have hx := List.forall_mem_singleton.1 (hbounded.foldWhile hfold).operands
  have hextent : (opening.extent.cover (x.shift d).extent).cover close.extent =
      ⟨opening.extent.start, close.extent.stop⟩ := by
    have := hx.lower
    have := hx.width
    have := hx.upper
    simp only [Extent.cover, Operand.shift_extent, Extent.shift_start, Extent.shift_stop,
      Extent.mk.injEq]
    omega
  have hparameters : f.parameters = s.parameters := by
    obtain ⟨r, hr, rfl⟩ := Trace.exists_of_applyAll hf
    exact (Trace.InScope.applyAll hlinked hr).parameters_of_finish he
  have hplain : (∀ overloads, g.kind opening.rule ≠ .functionCall overloads) ∧
      ∀ build, g.kind opening.rule ≠ .collectionBracket build := by
    rw [show g.kind opening.rule = .bracketOpen from hopen]
    exact ⟨fun _ h => (nomatch h), fun _ h => (nomatch h)⟩
  have hcontents := @Enclosed.bracket g ⟨f.parameters, s.operands, s.operators⟩
    ⟨opening, none⟩ [x.shift d] close.extent (x.shift d) hplain rfl
  have hend : (f.over d opening s).apply g close =
      .ok (s.pushOperand ⟨x.expr, ⟨opening.extent.start, close.extent.stop⟩⟩) := by
    unfold ParseState.apply
    rw [hclose]
    refine close_eq_ok.2 ⟨_, hunwind, ?_⟩
    rw [hextent, hparameters] at hcontents
    exact hparameters ▸ hcontents
  rw [List.cons_append, applyAll_cons, hawait]
  change ((start s.parameters).over d opening s).applyAll g (ts.map (·.shift d) ++ [close]) = _
  rw [applyAll_append, hrun]
  exact bind_eq_ok.2 ⟨_, rfl, bind_eq_ok.2 ⟨_, hend, rfl⟩⟩

/-- Tokens that make an expression on their own make it between brackets, wherever these stand behind
the tokens read before: the state has one more operand, from the opening to the close, and is the same
but for that. -/
theorem brackets_transparent {rules : List Rule} {l : Language} (made : Language.make? rules = .ok l)
    {start : List Parameter} {before ts : List Token} {mid lo hi d : Nat} {s f : ParseState} {e : Expr}
    {opening close : Token} (hbefore : Ordered 0 before mid)
    (hs : (ParseState.start start).applyAll l.grammar before = .ok s)
    (hts : Ordered lo ts hi) (hf : (ParseState.start s.parameters).applyAll l.grammar ts = .ok f)
    (he : f.finish l.grammar = .ok e) (hopen : l.grammar.IsOpen opening)
    (hcloses : l.grammar.Closes close opening) (hmid : mid ≤ opening.extent.start)
    (hwidth : opening.extent.start < opening.extent.stop) (hlo : opening.extent.stop ≤ lo + d)
    (hhi : hi + d ≤ close.extent.start) (hwidth' : close.extent.start < close.extent.stop) :
    s.applyAll l.grammar (opening :: ts.map (·.shift d) ++ [close]) =
      .ok (s.pushOperand ⟨e, ⟨opening.extent.start, close.extent.stop⟩⟩) := by
  have hempty : Bounded 0 mid [] [] := ⟨by simp, by simp⟩
  have hbounded := hempty.applyAll hbefore.between hs
  have hbelow : ∀ x ∈ s.operands, x.extent.start < opening.extent.stop := by
    intro x hx
    have := (hbounded.operands x hx).width
    have := (hbounded.operands x hx).upper
    omega
  exact ParseState.applyAll_bracketed (linked_of_make? made) hbelow hts hf he hopen hcloses hwidth hlo hhi
    hwidth'

/-- Behind `2*` the text `(1+3)` is one operand, the sum of `1+3`. -/
theorem brackets_transparent_factor :
    ∃ s e, (ParseState.start []).applyAll Arithmetic.language.grammar
        [⟨0, "2", ⟨0, 1⟩⟩, ⟨14, "*", ⟨1, 2⟩⟩] = .ok s ∧
      ((ParseState.start s.parameters).applyAll Arithmetic.language.grammar
        [⟨0, "1", ⟨0, 1⟩⟩, ⟨12, "+", ⟨1, 2⟩⟩, ⟨0, "3", ⟨2, 3⟩⟩] >>=
          (·.finish Arithmetic.language.grammar)) = .ok e ∧
      s.applyAll Arithmetic.language.grammar
        [⟨9, "(", ⟨2, 3⟩⟩, ⟨0, "1", ⟨3, 4⟩⟩, ⟨12, "+", ⟨4, 5⟩⟩, ⟨0, "3", ⟨5, 6⟩⟩, ⟨11, ")", ⟨6, 7⟩⟩] =
          .ok (s.pushOperand ⟨e, ⟨2, 7⟩⟩) := by
  -- one evaluation, since the language is read anew in each
  have hread : ((ParseState.start []).applyAll Arithmetic.language.grammar
      [⟨0, "2", ⟨0, 1⟩⟩, ⟨14, "*", ⟨1, 2⟩⟩]).toOption.map (·.parameters.length) = some 0 ∧
    ((ParseState.start []).applyAll Arithmetic.language.grammar
      [⟨0, "1", ⟨0, 1⟩⟩, ⟨12, "+", ⟨1, 2⟩⟩, ⟨0, "3", ⟨2, 3⟩⟩] >>=
        (·.finish Arithmetic.language.grammar)).toOption.isSome = true := by
    decide +kernel
  obtain ⟨hbefore, hinner⟩ := hread
  obtain ⟨s, hs, hparameters⟩ := Option.map_eq_some_iff.1 hbefore
  obtain ⟨e, he⟩ := Option.isSome_iff_exists.1 hinner
  have hs := toOption_eq_some.1 hs
  have he := toOption_eq_some.1 he
  rw [← List.length_eq_zero_iff.1 hparameters] at he
  have made := make?_eq_ofRules Arithmetic.rules_fit
  change Language.make? Arithmetic.rules = .ok Arithmetic.language at made
  -- Only the rules of the language count from here on, and unfolding it is slow.
  generalize Arithmetic.language = l at made hs he ⊢
  obtain ⟨f, hf, hfinish⟩ := bind_eq_ok.1 he
  have hopening : l.grammar.rules[9]? = some (.bracketOpen "OPEN_BRACKET" "\\(") := by
    rw [(of_make? made).1]
    rfl
  have hclose : l.grammar.rules[11]? =
      some (.bracketClose "CLOSE_BRACKET" "\\)" ("OPEN_BRACKET" :: Arithmetic.functions.map (·.1))
        (some "COMMA")) := by
    rw [(of_make? made).1]
    rfl
  have hopen : l.grammar.IsOpen ⟨9, "(", ⟨2, 3⟩⟩ :=
    @Grammar.kind_eq _ ⟨9, "(", ⟨2, 3⟩⟩ _ hopening
  have hcloses : l.grammar.Closes ⟨11, ")", ⟨6, 7⟩⟩ ⟨9, "(", ⟨2, 3⟩⟩ :=
    ⟨_, _, @Grammar.kind_eq _ ⟨11, ")", ⟨6, 7⟩⟩ _ hclose, "OPEN_BRACKET", List.mem_cons_self, _,
      hopening, rfl⟩
  exact ⟨s, e, hs, he, @brackets_transparent _ _ made [] _ _ 2 0 3 3 _ _ _ _ _ (by decide) hs
    (by decide) hf hfinish hopen hcloses (by decide) (by decide) (by decide) (by decide) (by decide)⟩

end Parlance
