import Parlance.Proofs.Layers
import Parlance.Proofs.Nesting
import Parlance.Proofs.Transparency

/-!
# The reductions of a parse

A `Reduction` is an operator on top of what waits, with what waits below it and the operands that it may
take from. `Trace.reductions` are those that a token brings about, `Trace.lastReductions` those at the
end of a text: each follows the one before it, and the first one that fails is the last. If one fails,
the parse does, with the same error (`Trace.apply_of_reduction`, `Trace.finish_of_reduction`).
-/

namespace Parlance

/-- An operator that is reduced, with what waits below it and the operands on the stack. -/
structure Reduction where
  top : Pending
  below : List Pending
  operands : List Derived

namespace Reduction

/-- What the parse makes of the operands. -/
def outcome (g : Grammar) (ρ : Reduction) : Except ParseError (List Operand) :=
  reduce g ρ.top.activation (ρ.below.map Pending.activation) (ρ.operands.map Derived.operand)

/-- The operands in the order of the positions of the operator, and those that it leaves. -/
def taken (ρ : Reduction) (positions : List Side) : Except ParseError (List Operand × List Operand) :=
  takeOperands ρ.top.extent positions (boundaryOf (ρ.below.map Pending.activation))
    (ρ.operands.map Derived.operand)

end Reduction

namespace Trace

variable {g : Grammar} {folds : RuleKind → Bool} {links : BracketLinks} {previous : Extent}
  {operators : List Pending} {operands : List Derived} {ρ : Reduction} {e : ParseError} {s : Trace}
  {t : Token}

/-- The reductions from the top of what waits while the kinds of the rules allow it. -/
def foldReductions (g : Grammar) (folds : RuleKind → Bool) :
    List Pending → List Derived → List Reduction
  | [], _ => []
  | top :: below, operands =>
    if folds (g.kind top.rule) then
      ⟨top, below, operands⟩ ::
        (reduce g top below operands).elim [] (foldReductions g folds below)
    else []

/-- The reductions on the way down to a bracket that `links` closes. -/
def unwindReductions (g : Grammar) (links : BracketLinks) (previous : Extent) :
    List Pending → List Derived → List Reduction
  | [], _ => []
  | top :: below, operands =>
    if links.opens.contains top.rule then []
    else if links.delimiter = some top.rule then
      match takeBetween? top.extent previous operands with
      | some (_, rest) => unwindReductions g links top.extent below rest
      | none => []
    else
      ⟨top, below, operands⟩ ::
        (reduce g top below operands).elim [] (unwindReductions g links previous below)

/-- The reductions that a token brings about: a close bracket unwinds what waits, and an operator or a
bracket may first reduce some of it. -/
def reductions (g : Grammar) (s : Trace) (t : Token) : List Reduction :=
  if (g.kind t.rule).isClose then
    unwindReductions g (g.linksOf t.rule) t.extent s.operators s.operands
  else foldReductions g (g.kind t.rule).foldsBefore s.operators s.operands

/-- The reductions at the end of a text. -/
def lastReductions (g : Grammar) (s : Trace) : List Reduction :=
  foldReductions g (fun _ => true) s.operators s.operands

/-! ## What holds of every reduction -/

/-- What a reduction keeps holds of the stacks of every reduction. -/
theorem foldReductions_induction {P : List Pending → List Derived → Prop}
    (step : ∀ {top : Pending} {below : List Pending} {operands results : List Derived},
      P (top :: below) operands → Reduced g top below operands results → P below results)
    (h : P operators operands) (hρ : ρ ∈ foldReductions g folds operators operands) :
    P (ρ.top :: ρ.below) ρ.operands := by
  induction operators generalizing operands with
  | nil => cases hρ
  | cons top below ih =>
    simp only [foldReductions] at hρ
    split at hρ
    · rcases List.mem_cons.1 hρ with rfl | hρ
      · exact h
      · cases hr : reduce g top below operands with
        | none =>
          rw [hr] at hρ
          cases hρ
        | some results =>
          rw [hr] at hρ
          exact ih (step h (reduce_eq_some.1 hr)) hρ
    · cases hρ

/-- What reductions and delimiters keep holds of the stacks of every reduction on the way to a
bracket. -/
theorem unwindReductions_induction {P : List Pending → List Derived → Prop}
    (step : ∀ {top : Pending} {below : List Pending} {operands results : List Derived},
      P (top :: below) operands → Reduced g top below operands results → P below results)
    (separate : ∀ {top : Pending} {below : List Pending} {x : Derived} {rest : List Derived},
      top.extent.stop ≤ x.extent.start → P (top :: below) (x :: rest) → P below rest)
    (h : P operators operands) (hρ : ρ ∈ unwindReductions g links previous operators operands) :
    P (ρ.top :: ρ.below) ρ.operands := by
  induction operators generalizing operands previous with
  | nil => cases hρ
  | cons top below ih =>
    simp only [unwindReductions] at hρ
    split at hρ
    · cases hρ
    split at hρ
    · split at hρ
      · rename_i x rest htake
        obtain ⟨rfl, hafter, -⟩ := takeBetween?_eq_some.1 htake
        exact ih (separate hafter h) hρ
      · cases hρ
    · rcases List.mem_cons.1 hρ with rfl | hρ
      · exact h
      · cases hr : reduce g top below operands with
        | none =>
          rw [hr] at hρ
          cases hρ
        | some results =>
          rw [hr] at hρ
          exact ih (step h (reduce_eq_some.1 hr)) hρ

theorem reductions_induction {P : List Pending → List Derived → Prop}
    (step : ∀ {top : Pending} {below : List Pending} {operands results : List Derived},
      P (top :: below) operands → Reduced g top below operands results → P below results)
    (separate : ∀ {top : Pending} {below : List Pending} {x : Derived} {rest : List Derived},
      top.extent.stop ≤ x.extent.start → P (top :: below) (x :: rest) → P below rest)
    (h : P s.operators s.operands)
    (hρ : (∃ t, ρ ∈ s.reductions g t) ∨ ρ ∈ s.lastReductions g) : P (ρ.top :: ρ.below) ρ.operands := by
  rcases hρ with ⟨t, hρ⟩ | hρ
  · unfold reductions at hρ
    split at hρ
    · exact unwindReductions_induction step separate h hρ
    · exact foldReductions_induction step h hρ
  · exact foldReductions_induction step h hρ

/-! ## Reductions that fail -/

theorem foldWhile_of_reduction (hρ : ρ ∈ foldReductions g folds operators operands)
    (he : ρ.outcome g = .error e) :
    Parlance.foldWhile g folds (operators.map Pending.activation)
      (operands.map Derived.operand) = .error e := by
  induction operators generalizing operands with
  | nil => cases hρ
  | cons top below ih =>
    simp only [foldReductions] at hρ
    simp only [List.map_cons, Parlance.foldWhile]
    split at hρ
    · rename_i hfolds
      rw [if_pos hfolds]
      rcases List.mem_cons.1 hρ with rfl | hρ
      · rw [show Parlance.reduce _ _ _ _ = _ from he]
        rfl
      · have hmap := map_reduce g top below operands
        cases hr : reduce g top below operands with
        | none =>
          rw [hr] at hρ
          cases hρ
        | some results =>
          rw [hr] at hρ hmap
          rw [toOption_eq_some.1 hmap.symm]
          exact ih hρ
    · cases hρ

theorem unwind_of_reduction {close : Extent} {separated : Bool} {contents : List Operand}
    (hρ : ρ ∈ unwindReductions g links previous operators operands)
    (he : ρ.outcome g = .error e) :
    Parlance.unwind g links close previous separated contents (operators.map Pending.activation)
      (operands.map Derived.operand) = .error e := by
  induction operators generalizing operands previous separated contents with
  | nil => cases hρ
  | cons top below ih =>
    simp only [unwindReductions] at hρ
    simp only [List.map_cons, Parlance.unwind]
    split at hρ
    · cases hρ
    rename_i hopens
    rw [if_neg hopens]
    split at hρ
    · rename_i hdelimiter
      rw [if_pos hdelimiter, ← map_takeBetween?]
      split at hρ
      · rename_i x rest htake
        rw [htake]
        exact ih hρ
      · cases hρ
    · rename_i hdelimiter
      rw [if_neg hdelimiter]
      rcases List.mem_cons.1 hρ with rfl | hρ
      · rw [show Parlance.reduce _ _ _ _ = _ from he]
        rfl
      · have hmap := map_reduce g top below operands
        cases hr : reduce g top below operands with
        | none =>
          rw [hr] at hρ
          cases hρ
        | some results =>
          rw [hr] at hρ hmap
          rw [toOption_eq_some.1 hmap.symm]
          exact ih hρ

/-- A token fails with the error of a reduction that it brings about. -/
theorem apply_of_reduction (hρ : ρ ∈ s.reductions g t) (he : ρ.outcome g = .error e) :
    s.state.apply g t = .error e := by
  unfold reductions at hρ
  split at hρ
  · rename_i hclose
    obtain ⟨opens, delimiter, hkind⟩ : ∃ opens delimiter, g.kind t.rule = .bracketClose opens delimiter := by
      cases hk : g.kind t.rule <;> simp_all [RuleKind.isClose]
    have hunwind : Parlance.unwind g (g.linksOf t.rule) t.extent t.extent false [] s.state.operators
        s.state.operands = .error e := unwind_of_reduction hρ he
    simp only [ParseState.apply, hkind, ParseState.close, hunwind]
    rfl
  · have hwaits : (g.kind t.rule).isInert = false := by
      by_contra hinert
      have hnone : (g.kind t.rule).foldsBefore = fun _ => false := by
        cases hk : g.kind t.rule <;> simp_all [RuleKind.isInert, RuleKind.foldsBefore]
      rw [hnone] at hρ
      cases hoperators : s.operators <;> simp [hoperators, foldReductions] at hρ
    have hfold : Parlance.foldWhile g (g.kind t.rule).foldsBefore s.state.operators s.state.operands =
        .error e := foldWhile_of_reduction hρ he
    rw [ParseState.apply_of_waits hwaits, ParseState.foldWhile, hfold]
    rfl

/-- A parse fails with the error of a reduction at the end. -/
theorem finish_of_reduction (hρ : ρ ∈ s.lastReductions g) (he : ρ.outcome g = .error e) :
    s.state.finish g = .error e := by
  have hfold : Parlance.foldWhile g (fun _ => true) s.state.operators s.state.operands = .error e :=
    foldWhile_of_reduction hρ he
  rw [ParseState.finish, ParseState.foldWhile, hfold]
  rfl

end Trace

end Parlance
