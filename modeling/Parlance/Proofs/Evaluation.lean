import Parlance.Proofs.Operations

/-!
# Evaluation of typed expressions

A typed expression, over an environment of values of the types in scope, has a value of its type or
fails in a way that typing does not rule out (`Expr.Typed.yields`); either way the environment is what
it was. Predicates over collections bind their element behind the environment and cut it back.
-/

namespace Parlance

namespace Eval

/-! ## Computations -/

/-- From an environment the computation comes to an outcome, and it leaves the environment as it was. -/
def Yields {α : Type} (env : List Value) (P : α → Prop) (x : Eval α) : Prop :=
  Outcome P (x.run env).1 ∧ (x.run env).2 = env

variable {α β : Type} {env : List Value} {P : α → Prop} {Q : β → Prop}

theorem run_bind (x : Eval α) (f : α → Eval β) (env : List Value) :
    (x >>= f).run env =
      match x.run env with
      | (.ok a, after) => (f a).run after
      | (.error e, after) => (.error e, after) := by
  change (ExceptT.bindCont f (x.run env).1 : StateM (List Value) _) (x.run env).2 = _
  rcases x.run env with ⟨_ | a, after⟩ <;> rfl

theorem run_read (slot : Nat) (env : List Value) :
    (read slot).run env =
      ((match env[slot]? with | some v => .ok v | none => .error (.unboundParameter slot)), env) := by
  change (match env[slot]? with | some v => _ | none => _ : Eval Value).run env = _
  cases env[slot]? <;> rfl

namespace Yields

theorem pure {a : α} (h : P a) : Yields env P (pure a) := ⟨h, rfl⟩

theorem ofExcept {x : Except EvalError α} (h : Outcome P x) : Yields env P (Eval.ofExcept x) :=
  ⟨h, rfl⟩

theorem bind {x : Eval α} {f : α → Eval β} (hx : Yields env P x)
    (hf : ∀ a, P a → Yields env Q (f a)) : Yields env Q (x >>= f) := by
  unfold Yields at hx ⊢
  rw [run_bind]
  rcases hrun : x.run env with ⟨e | a, after⟩
  · rw [hrun] at hx
    exact hx
  · rw [hrun] at hx
    obtain ⟨ha, rfl⟩ := hx
    exact hf a ha

theorem read {Γ : List ValueType} {slot : Nat} {t : ValueType}
    (henv : List.Forall₂ Value.Inhabits env Γ) (h : Γ[slot]? = some t) :
    Yields env (·.Inhabits t) (Eval.read slot) := by
  obtain ⟨hlt, hget⟩ := List.getElem?_eq_some_iff.1 h
  have hlt' : slot < env.length := by rwa [henv.length_eq]
  have hv := henv.get hlt' hlt
  simp only [List.get_eq_getElem, hget] at hv
  have hrun : (Eval.read slot).run env = (.ok env[slot], env) := by
    rw [run_read, List.getElem?_eq_getElem hlt']
  unfold Yields
  rw [hrun]
  exact ⟨hv, rfl⟩

end Yields

/-! ## Predicates -/

theorem quantifyItems_unnamed {op : CollectionOp} {predicate : Eval Value}
    (h : Yields env (·.Inhabits .bool) predicate) (items : List Value) :
    Yields env (fun _ => True) (quantifyItems op none predicate items) := by
  induction items with
  | nil => exact .pure trivial
  | cons item items ih =>
    refine h.bind fun v hv => (Yields.ofExcept (Value.outcome_truth hv)).bind fun verdict _ => ?_
    split
    · exact .pure trivial
    · exact ih

theorem bind_length (env : List Value) (v : Value) : bind env.length v env = env ++ [v] := by
  simp [bind]

theorem bind_length_append (env : List Value) (v w : Value) :
    bind env.length v (env ++ [w]) = env ++ [v] := by
  simp [bind]

/-- While a predicate runs, the environment has at most the element behind it. -/
theorem quantifyItems_named {op : CollectionOp} {predicate : Eval Value} {element : ValueType}
    (h : ∀ x : Value, x.Inhabits element → Yields (env ++ [x]) (·.Inhabits .bool) predicate)
    {items : List Value} (hitems : ∀ x ∈ items, x.Inhabits element) (bound : List Value)
    (hbound : bound.length ≤ 1) :
    let r := (quantifyItems op (some env.length) predicate items).run (env ++ bound)
    Outcome (fun _ => True) r.1 ∧ r.2.take env.length = env := by
  induction items generalizing bound with
  | nil => exact ⟨trivial, List.take_left⟩
  | cons item items ih =>
    have hbind : bind env.length item (env ++ bound) = env ++ [item] := by
      match bound, hbound with
      | [], _ => rw [List.append_nil, bind_length]
      | [w], _ => exact bind_length_append env item w
    obtain ⟨hout, henv⟩ := h item (hitems item List.mem_cons_self)
    change let r := (predicate >>= fun v => ofExcept v.truth >>= fun verdict =>
        if verdict == (op == .any) then Pure.pure verdict
        else quantifyItems op (some env.length) predicate items).run (bind env.length item (env ++ bound))
      Outcome (fun _ => True) r.1 ∧ r.2.take env.length = env
    rw [hbind, run_bind]
    rcases hrun : predicate.run (env ++ [item]) with ⟨e | v, after⟩
    · rw [hrun] at hout henv
      exact ⟨hout, by rw [show after = _ from henv]; exact List.take_left⟩
    · rw [hrun] at hout henv
      obtain rfl : after = env ++ [item] := henv
      obtain ⟨b, rfl⟩ := (Value.Inhabits.bool hout rfl).resolve_left (by rintro rfl; cases hout)
      change let r := (if b == (op == .any) then Pure.pure b
          else quantifyItems op (some env.length) predicate items : Eval Bool).run (env ++ [item])
        Outcome (fun _ => True) r.1 ∧ r.2.take env.length = env
      split
      · exact ⟨trivial, List.take_left⟩
      · exact ih (fun x hx => hitems x (List.mem_cons_of_mem item hx)) [item] (Nat.le_refl 1)

theorem Yields.restoring {x : Eval α} (h : Outcome P (x.run env).1)
    (henv : (x.run env).2.take env.length = env) : Yields env P (Eval.restoring x) :=
  ⟨h, henv⟩

end Eval

/-! ## Expressions -/

theorem Value.Inhabits.eq_null {v : Value} (h : v.Inhabits .null) : v = .null := by
  cases v <;> first | rfl | cases h

namespace Expr

variable {env : List Value}

theorem yields_evaluateItems {es : List Expr}
    (h : ∀ e ∈ es, Eval.Yields env (·.Inhabits e.type) e.evaluate) :
    Eval.Yields env (fun vs => List.Forall₂ (fun v e => v.Inhabits e.type) vs es)
      (evaluateItems es) := by
  induction es with
  | nil =>
    rw [evaluateItems]
    exact .pure .nil
  | cons e es ih =>
    rw [evaluateItems]
    refine (h e List.mem_cons_self).bind fun v hv => ?_
    refine (ih fun e he => h e (List.mem_cons_of_mem _ he)).bind fun vs hvs => ?_
    exact .pure (.cons hv hvs)

/-- Items whose type is that of null stand for null wherever the others have values. -/
theorem inhabits_items {vs : List Value} {es : List Expr} {t : ValueType}
    (h : List.Forall₂ (fun v e => v.Inhabits e.type) vs es)
    (ht : ∀ e ∈ es, e.type = t ∨ e.type = .null ∧ t.acceptsNull = true) :
    ∀ v ∈ vs, v.Inhabits t := by
  induction h with
  | nil => simp
  | @cons v e vs es hv _ ih =>
    obtain ⟨he, ht⟩ := List.forall_mem_cons.1 ht
    refine List.forall_mem_cons.2 ⟨?_, ih ht⟩
    rcases he with he | ⟨he, hnull⟩
    · rwa [he] at hv
    · rw [he] at hv
      rw [hv.eq_null]
      exact hnull

namespace Typed

/-- A typed expression has a value of its type, or fails in a way that typing does not rule out. -/
theorem yields {Γ : List ValueType} {e : Expr} (h : Typed True Γ e)
    (henv : List.Forall₂ Value.Inhabits env Γ) :
    Eval.Yields env (·.Inhabits e.type) e.evaluate := by
  induction h generalizing env with
  | constant value _ =>
    rw [evaluate]
    exact .pure value
  | parameter slot_eq =>
    rw [evaluate]
    exact .read henv slot_eq
  | field _ record field_eq ih =>
    rw [evaluate]
    exact (ih henv).bind fun v hv => .ofExcept (Value.outcome_fieldAt hv record field_eq)
  | convert _ converts _ ih =>
    rw [evaluate]
    exact (ih henv).bind fun v hv => .ofExcept (Value.outcome_convert hv (converts trivial))
  | unary _ accepts ih =>
    rw [evaluate]
    exact (ih henv).bind fun v hv => .ofExcept (Value.outcome_unary hv accepts)
  | @binary Γ op left right t _ _ types type ihl ihr =>
    rw [evaluate]
    refine (ihl henv).bind fun a ha => ?_
    split
    · rename_i hconnective
      obtain ⟨hbool, rfl⟩ : left.type = .bool ∧ ValueType.bool = t := by
        rcases (by simpa using hconnective : op = .and ∨ op = .or) with rfl | rfl <;>
          simpa [binaryType?, BinaryOp.isArithmetic, BinaryOp.isOrdering, BinaryOp.isEquality]
            using type
      rw [hbool] at ha types
      refine (Eval.Yields.ofExcept (Value.outcome_truth ha)).bind fun decided _ => ?_
      split
      · exact .pure rfl
      · refine (ihr henv).bind fun b hb => ?_
        rw [← types] at hb
        exact (Eval.Yields.ofExcept (Value.outcome_truth hb)).bind fun _ _ => .pure rfl
    · rename_i hstrict
      refine (ihr henv).bind fun b hb => .ofExcept ?_
      exact Value.outcome_binary ha (types ▸ hb) type hstrict
  | @call Γ f args function _ types ih =>
    rw [evaluate]
    refine (yields_evaluateItems fun e he => ih e he henv).bind fun vs hvs => .ofExcept ?_
    have hargs : List.Forall₂ Value.Inhabits vs f.parameters := by
      rw [← types, List.forall₂_map_right_iff]
      exact hvs
    cases hbody : f.body vs with
    | error failure => cases failure <;> exact rfl
    | ok v => exact function.body hargs hbody
  | @list Γ items _ types ih =>
    rw [evaluate]
    refine (yields_evaluateItems fun e he => ih e he henv).bind fun vs hvs => .pure ?_
    exact Value.inhabits_list rfl (inhabits_items hvs types)
  | occupied _ element_eq _ ih =>
    rw [evaluate]
    refine (ih henv).bind fun v hv => ?_
    refine (Eval.Yields.ofExcept (Value.outcome_elements hv element_eq)).bind fun items _ => ?_
    exact .pure rfl
  | quantified _ element_eq _ type ih ihb =>
    rw [evaluate]
    refine (ih henv).bind fun v hv => ?_
    refine (Eval.Yields.ofExcept (Value.outcome_elements hv element_eq)).bind fun items _ => ?_
    obtain ⟨hout, hafter⟩ := Eval.quantifyItems_unnamed (type ▸ ihb henv) items
    refine (Eval.Yields.restoring hout ?_).bind fun verdict _ => .pure rfl
    rw [hafter, List.take_length]
  | @named Γ op source body element _ element_eq _ type ih ihb =>
    rw [evaluate]
    refine (ih henv).bind fun v hv => ?_
    refine (Eval.Yields.ofExcept (Value.outcome_elements hv element_eq)).bind fun items hitems => ?_
    have hbody : ∀ x : Value, x.Inhabits element →
        Eval.Yields (env ++ [x]) (·.Inhabits .bool) body.evaluate := fun x hx =>
      type ▸ ihb (List.rel_append henv (.cons hx .nil))
    rw [← henv.length_eq]
    obtain ⟨hout, hafter⟩ := @Eval.quantifyItems_named env op _ element hbody items hitems []
      (Nat.zero_le 1)
    rw [List.append_nil] at hout hafter
    exact (Eval.Yields.restoring hout hafter).bind fun verdict _ => .pure rfl

end Typed

end Expr

end Parlance
