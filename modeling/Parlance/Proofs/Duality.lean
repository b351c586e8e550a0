import Parlance.Proofs.Evaluation

/-!
# Quantifiers are dual

All elements fail a predicate exactly if it is not so that any element passes it. For the evaluator this is
more than a law of truth values: both ways of saying it run the predicate on the same elements, in the same
environments (`Eval.visits_dual`), and stop at the same one, with the same verdict or the same failure
(`Eval.run_quantifyItems_dual`). So they are one computation (`quantifiers_dual`).
-/

namespace Parlance

/-- The other quantifier. -/
def CollectionOp.dual : CollectionOp → CollectionOp
  | any => all
  | all => any

namespace CollectionOp

variable (op : CollectionOp)

theorem dual_eq_all : (op.dual == all) = !(op == all) := by
  cases op <;> rfl

/-- A verdict decides for a quantifier where its negation decides for the other one. -/
theorem decides_dual (b : Bool) : ((!b) == (op.dual == any)) = (b == (op == any)) := by
  cases op <;> cases b <;> rfl

end CollectionOp

/-- The negation of a value is a truth value where the value is one; it fails where the value is refused as
one, and then as the value does. -/
theorem Value.truth_not (v : Value) : (v.unary .not >>= truth) = v.truth.map (!·) := by
  cases v <;> rfl

namespace Eval

/-! ## Verdicts -/

/-- The truth value that a predicate comes to. -/
def verdict (p : Eval Value) : Eval Bool := do ofExcept (← p).truth

/-- The negation of a predicate. -/
def negated (p : Eval Value) : Eval Value := do ofExcept ((← p).unary .not)

/-- The environment with an element bound, if the element has a slot. -/
def enter (slot : Option Nat) (item : Value) (env : List Value) : List Value :=
  match slot with
  | some slot => bind slot item env
  | none => env

variable {op : CollectionOp} {slot : Option Nat} {p : Eval Value}

theorem run_verdict_negated (p : Eval Value) (env : List Value) :
    (verdict (negated p)).run env = Prod.map (Except.map (!·)) id ((verdict p).run env) := by
  rw [verdict, negated, verdict, bind_assoc, run_bind, run_bind]
  rcases p.run env with ⟨e | v, after⟩
  · rfl
  · have hnot := v.truth_not
    change (ofExcept (v.unary .not) >>= fun w => ofExcept w.truth).run after = (v.truth.map (!·), after)
    rw [← hnot, run_bind]
    cases v.unary .not <;> rfl

theorem run_quantifyItems_cons (op : CollectionOp) (slot : Option Nat) (p : Eval Value) (item : Value)
    (items env : List Value) :
    (quantifyItems op slot p (item :: items)).run env =
      match (verdict p).run (enter slot item env) with
      | (.ok b, after) =>
        if b == (op == .any) then (.ok b, after) else (quantifyItems op slot p items).run after
      | (.error e, after) => (.error e, after) := by
  have hstep (start : List Value) : (p >>= fun v => ofExcept v.truth >>= fun b =>
      if b == (op == .any) then pure b else quantifyItems op slot p items).run start =
      match (verdict p).run start with
      | (.ok b, after) =>
        if b == (op == .any) then (.ok b, after) else (quantifyItems op slot p items).run after
      | (.error e, after) => (.error e, after) := by
    rw [← bind_assoc, run_bind]
    rcases hrun : (verdict p).run start with ⟨e | b, after⟩ <;> rw [verdict] at hrun <;> rw [hrun]
    dsimp only
    split <;> rfl
  cases slot with
  | none => exact hstep env
  | some slot => exact hstep (bind slot item env)

theorem run_restoring {α : Type} (x : Eval α) (env : List Value) :
    (restoring x).run env = Prod.map id (·.take env.length) (x.run env) := rfl

/-! ## Visits -/

/-- The elements that a predicate is run on, each with the environment that it is run in. -/
def visits (op : CollectionOp) (slot : Option Nat) (p : Eval Value) :
    List Value → List Value → List (Value × List Value)
  | [], _ => []
  | item :: items, env =>
    (item, enter slot item env) ::
      match (verdict p).run (enter slot item env) with
      | (.ok b, after) => if b == (op == .any) then [] else visits op slot p items after
      | (.error _, _) => []

/-- What fails is the predicate at the last element that it is run on. -/
theorem exists_visits_of_error {items env after : List Value} {e : EvalError}
    (h : (quantifyItems op slot p items).run env = (.error e, after)) :
    ∃ before item start, visits op slot p items env = before ++ [(item, start)] ∧
      (verdict p).run start = (.error e, after) := by
  induction items generalizing env with
  | nil => cases h
  | cons item items ih =>
    rw [run_quantifyItems_cons] at h
    rw [visits]
    rcases hrun : (verdict p).run (enter slot item env) with ⟨e' | b, next⟩ <;> rw [hrun] at h
    · cases h
      exact ⟨[], item, _, rfl, hrun⟩
    · simp only at h ⊢
      split at h
      · cases h
      · rename_i hgoes
        obtain ⟨before, last, start, hvisits, hfails⟩ := ih h
        rw [if_neg hgoes, hvisits]
        exact ⟨_ :: before, last, start, rfl, hfails⟩

theorem visits_dual (op : CollectionOp) (slot : Option Nat) (p : Eval Value) (items env : List Value) :
    visits op.dual slot (negated p) items env = visits op slot p items env := by
  induction items generalizing env with
  | nil => rfl
  | cons item items ih =>
    rw [visits, visits, run_verdict_negated]
    rcases (verdict p).run (enter slot item env) with ⟨e | b, after⟩
    · rfl
    · simp only [Prod.map_apply, Except.map, id, op.decides_dual, ih]

/-- The other quantifier over the negated predicate comes to the opposite verdict. -/
theorem run_quantifyItems_dual (op : CollectionOp) (slot : Option Nat) (p : Eval Value)
    (items env : List Value) :
    (quantifyItems op.dual slot (negated p) items).run env =
      Prod.map (Except.map (!·)) id ((quantifyItems op slot p items).run env) := by
  induction items generalizing env with
  | nil =>
    change (Except.ok (op.dual == .all), env) = (.ok !(op == .all), env)
    rw [op.dual_eq_all]
  | cons item items ih =>
    rw [run_quantifyItems_cons, run_quantifyItems_cons, run_verdict_negated]
    rcases (verdict p).run (enter slot item env) with ⟨e | b, after⟩
    · rfl
    · simp only [Prod.map_apply, Except.map, id, op.decides_dual]
      split
      · rfl
      · exact ih after

end Eval

namespace Expr

theorem evaluate_not (e : Expr) (t : ValueType) : (unary .not e t).evaluate = e.evaluate.negated := by
  rw [evaluate, Eval.negated]

/-- The elements of a collection come first; what their predicates leave in the environment is cut back. -/
theorem run_collection (op : CollectionOp) (source body : Expr) (slot : Option Nat) (env : List Value) :
    (collection op source slot (some body)).evaluate.run env =
      match (source.evaluate >>= fun v => Eval.ofExcept v.elements).run env with
      | (.ok items, after) =>
        Prod.map (Except.map .bool) (·.take after.length)
          ((Eval.quantifyItems op slot body.evaluate items).run after)
      | (.error e, after) => (.error e, after) := by
  rw [evaluate, ← bind_assoc, Eval.run_bind]
  rcases (source.evaluate >>= fun v => Eval.ofExcept v.elements).run env with ⟨e | items, after⟩
  · rfl
  · simp only
    rw [Eval.run_bind, Eval.run_restoring]
    rcases (Eval.quantifyItems op slot body.evaluate items).run after with ⟨e | b, last⟩ <;> rfl

end Expr

/-- A quantifier over a negated predicate is the negation of the other quantifier over the predicate: the same
truth value or the same failure, with the same environment afterwards. Both run the predicate on the same
elements in the same environments, and where one fails so does the other, in the same way, at the last of
these elements. -/
theorem quantifiers_dual (op : CollectionOp) (source body : Expr) (slot : Option Nat) (t u : ValueType) :
    (Expr.collection op.dual source slot (some (.unary .not body t))).evaluate =
      (Expr.unary .not (.collection op source slot (some body)) u).evaluate ∧
    ∀ items env : List Value,
      Eval.visits op.dual slot (Expr.unary .not body t).evaluate items env =
        Eval.visits op slot body.evaluate items env ∧
      ∀ e after, (Eval.quantifyItems op slot body.evaluate items).run env = (.error e, after) →
        (Eval.quantifyItems op.dual slot (Expr.unary .not body t).evaluate items).run env =
          (.error e, after) ∧
        ∃ before item start, Eval.visits op slot body.evaluate items env = before ++ [(item, start)] ∧
          (Eval.verdict body.evaluate).run start = (.error e, after) := by
  rw [body.evaluate_not]
  refine ⟨funext fun env => ?_, fun items env => ⟨Eval.visits_dual .., fun e after h => ⟨?_, ?_⟩⟩⟩
  · change (Expr.collection op.dual source slot (some (.unary .not body t))).evaluate.run env =
      (Expr.unary .not (.collection op source slot (some body)) u).evaluate.run env
    rw [Expr.evaluate_not, Eval.negated, Eval.run_bind, Expr.run_collection, Expr.run_collection,
      body.evaluate_not]
    rcases (source.evaluate >>= fun v => Eval.ofExcept v.elements).run env with ⟨e | items, after⟩
    · rfl
    · simp only
      rw [Eval.run_quantifyItems_dual]
      rcases (Eval.quantifyItems op slot body.evaluate items).run after with ⟨e | b, last⟩ <;> rfl
  · rw [Eval.run_quantifyItems_dual, h]
    rfl
  · exact Eval.exists_visits_of_error h

/-- Flags, of which the second is a text. -/
def mixedFlags : Expr := .list [.ofValue (.bool false), .ofValue (.string "x"), .ofValue (.bool true)]

/-- Both quantifiers fail at the text, and leave the last flag alone. -/
theorem quantifiers_dual_mixedFlags :
    (Expr.collection .all mixedFlags (some 0) (some (.unary .not (.parameter 0 none .bool) .bool))).evaluate.run
        [] = (.error (.typeMismatch (.type .bool) (.string "x")), []) ∧
      (Expr.unary .not (.collection .any mixedFlags (some 0) (some (.parameter 0 none .bool)))
        .bool).evaluate.run [] = (.error (.typeMismatch (.type .bool) (.string "x")), []) ∧
      Eval.visits .all (some 0) (Expr.unary .not (.parameter 0 none .bool) .bool).evaluate
        [.bool false, .string "x", .bool true] [] =
          [(.bool false, [.bool false]), (.string "x", [.string "x"])] := by
  obtain ⟨hrun, hvisits⟩ := quantifiers_dual .any mixedFlags (.parameter 0 none .bool) (some 0) .bool .bool
  exact ⟨(congrFun hrun []).trans rfl, rfl, (hvisits _ _).1.trans rfl⟩

end Parlance
