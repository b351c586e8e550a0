import Parlance.Proofs.Visibility

/-!
# Elements and their slots

The evaluator has one environment, which predicates over collections grow, overwrite and cut back.
`Expr.meaning` evaluates without it: each place in an expression has a `Scope` of its own, with the
arguments and the elements of the collections around it. Where every collection names its element by a
slot behind those that are bound around it (`Expr.WellScoped`) the two agree, and the environment is
what it was (`Expr.WellScoped.means`); its length is so for every expression (`Expr.keeps_evaluate`).
-/

namespace Parlance

/-! ## Scopes -/

/-- What a place in an expression sees: the arguments, and the current elements of the collections
around it that name theirs by a slot, the innermost first. -/
structure Scope where
  args : List Value
  elements : List (Nat × Value)

namespace Scope

/-- The number of the slots that are bound. -/
def size (σ : Scope) : Nat :=
  match σ.elements with
  | [] => σ.args.length
  | (slot, _) :: _ => slot + 1

/-- The scope inside a predicate, for an element of its collection. -/
def enter (σ : Scope) (slot : Nat) (element : Value) : Scope :=
  ⟨σ.args, (slot, element) :: σ.elements⟩

/-- What a slot holds: the element of the collection that names it, or else an argument. Slots that are
left out between them hold null. -/
def value? (σ : Scope) (slot : Nat) : Option Value :=
  (σ.elements.lookup slot).or (σ.args[slot]?.or (if slot < σ.size then some .null else none))

/-- Collections name their elements by slots behind those that are bound around them. -/
inductive Nested : Scope → Prop
  | start (args : List Value) : Nested ⟨args, []⟩
  | enter {σ : Scope} {slot : Nat} (element : Value) (outer : Nested σ) (slot_le : σ.size ≤ slot) :
      Nested (σ.enter slot element)

/-- The environment of a scope. -/
def env (σ : Scope) : List Value :=
  σ.elements.foldr (fun (slot, element) env => Eval.bind slot element env) σ.args

end Scope

namespace Eval

theorem bind_eq_append {slot : Nat} {env : List Value} (v : Value) (h : env.length ≤ slot) :
    bind slot v env = env ++ List.replicate (slot - env.length) .null ++ [v] := by
  have hreplicate : List.replicate (slot + 1 - env.length) Value.null =
      List.replicate (slot - env.length) .null ++ [.null] := by
    rw [← List.replicate_succ', show slot - env.length + 1 = slot + 1 - env.length by omega]
  have hlength : slot = (env ++ List.replicate (slot - env.length) Value.null).length := by
    simp only [List.length_append, List.length_replicate]
    omega
  rw [bind, hreplicate, ← List.append_assoc, List.set_append_right _ _ (by omega)]
  simp [← hlength]

theorem bind_bind {slot : Nat} {env : List Value} (v w : Value) (h : env.length ≤ slot) :
    bind slot w (bind slot v env) = bind slot w env := by
  have hlength : (env ++ List.replicate (slot - env.length) Value.null).length = slot := by
    simp only [List.length_append, List.length_replicate]
    omega
  have hbind := bind_length_append (env ++ List.replicate (slot - env.length) Value.null) w v
  rwa [hlength, ← bind_eq_append v h, ← bind_eq_append w h] at hbind

theorem take_bind {slot : Nat} {env : List Value} (v : Value) (h : env.length ≤ slot) :
    (bind slot v env).take env.length = env := by
  rw [bind_eq_append v h, List.append_assoc, List.take_left]

end Eval

namespace Scope

variable {σ : Scope} {slot : Nat}

@[simp] theorem env_start (args : List Value) : env ⟨args, []⟩ = args := rfl

@[simp] theorem env_enter (σ : Scope) (slot : Nat) (element : Value) :
    (σ.enter slot element).env = Eval.bind slot element σ.env := rfl

@[simp] theorem size_enter (σ : Scope) (slot : Nat) (element : Value) :
    (σ.enter slot element).size = slot + 1 := rfl

theorem value?_enter (σ : Scope) (next slot : Nat) (element : Value) :
    (σ.enter next element).value? slot =
      if slot = next then some element
      else (σ.elements.lookup slot).or
        (σ.args[slot]?.or (if slot < next + 1 then some .null else none)) := by
  rw [value?, size_enter, enter, List.lookup_cons]
  by_cases h : slot = next
  · simp [h]
  · rw [beq_eq_false_iff_ne.2 h, if_neg h]

namespace Nested

theorem length_env (h : σ.Nested) : σ.env.length = σ.size := by
  induction h with
  | start => rfl
  | enter element outer slot_le ih =>
    rw [env_enter, Eval.bind_eq_append element (by omega)]
    simp only [List.length_append, List.length_replicate, List.length_singleton, size_enter]
    omega

theorem args_le (h : σ.Nested) : σ.args.length ≤ σ.size := by
  induction h with
  | start => exact le_rfl
  | @enter σ slot element outer slot_le ih =>
    rw [size_enter]
    exact ih.trans (by omega)

theorem lt_size (h : σ.Nested) : ∀ x ∈ σ.elements, x.1 < σ.size := by
  induction h with
  | start => simp
  | @enter σ slot element outer slot_le ih =>
    refine List.forall_mem_cons.2 ⟨Nat.lt_succ_self slot, fun x hx => ?_⟩
    have := ih x hx
    rw [size_enter]
    omega

theorem lookup_of_size_le (h : σ.Nested) (hslot : σ.size ≤ slot) : σ.elements.lookup slot = none := by
  rw [List.lookup_eq_none_iff]
  intro x hx
  have := h.lt_size x hx
  exact bne_iff_ne.2 (by omega)

theorem value?_of_mem (h : σ.Nested) {x : Nat × Value} (hx : x ∈ σ.elements) :
    σ.value? x.1 = some x.2 := by
  suffices σ.elements.lookup x.1 = some x.2 by rw [value?, this, Option.some_or]
  induction h with
  | start => cases hx
  | @enter σ slot element outer slot_le ih =>
    rcases List.mem_cons.1 hx with rfl | hx
    · exact List.lookup_cons_self
    · have hlt := outer.lt_size x hx
      rw [Scope.enter, List.lookup_cons, beq_eq_false_iff_ne.2 (by omega)]
      exact ih hx

/-- The environment holds what the slots hold. -/
theorem getElem?_env (h : σ.Nested) (slot : Nat) : σ.env[slot]? = σ.value? slot := by
  induction h with
  | start args =>
    by_cases hslot : slot < args.length
    · simp [value?, hslot]
    · simp [value?, size, hslot]
  | @enter σ next element outer slot_le ih =>
    have hlength := outer.length_env
    rw [env_enter, Eval.bind_eq_append element (by omega)]
    rw [value?_enter]
    rcases Nat.lt_trichotomy slot next with hslot | rfl | hslot
    · rw [if_neg (by omega), if_pos (by omega), List.getElem?_append_left (by simp; omega)]
      by_cases hbound : slot < σ.size
      · rw [List.getElem?_append_left (by omega), ih, value?, if_pos hbound]
      · rw [outer.lookup_of_size_le (by omega), List.getElem?_append_right (by omega),
          List.getElem?_replicate_of_lt (by omega),
          List.getElem?_eq_none (outer.args_le.trans (by omega))]
        rfl
    · have hlength : (σ.env ++ List.replicate (slot - σ.env.length) Value.null).length = slot := by
        simp only [List.length_append, List.length_replicate]
        omega
      rw [if_pos rfl, List.getElem?_append_right (by omega), hlength, Nat.sub_self]
      rfl
    · rw [if_neg (by omega), if_neg (by omega), List.getElem?_eq_none (by simp; omega),
        outer.lookup_of_size_le (by omega), List.getElem?_eq_none (outer.args_le.trans (by omega))]
      rfl

end Nested

end Scope

/-! ## Meaning -/

/-- The first verdict on some elements that decides, or that of all of them. -/
def quantify (op : CollectionOp) (predicate : Value → Except EvalError Value) :
    List Value → Except EvalError Bool
  | [] => return op == .all
  | item :: items => do
    let verdict ← (← predicate item).truth
    if verdict == (op == .any) then return verdict else quantify op predicate items

namespace Expr

mutual

/-- The value of an expression at a place that sees a scope. -/
def meaning : Expr → Scope → Except EvalError Value
  | .constant value _, _ => return value
  | .parameter slot _ _, σ =>
    match σ.value? slot with
    | some v => return v
    | none => throw (.unboundParameter slot)
  | .field target index name _, σ => do
    let v ← meaning target σ
    v.fieldAt index name
  | .convert operand type, σ => do
    let v ← meaning operand σ
    v.convert type
  | .unary op operand _, σ => do
    let v ← meaning operand σ
    v.unary op
  | .binary op left right _, σ => do
    let a ← meaning left σ
    if op = .and || op = .or then
      let decided ← a.truth
      if decided == (op == .or) then return .bool decided
      else
        let b ← meaning right σ
        return .bool (← b.truth)
    else
      let b ← meaning right σ
      a.binary op b
  | .call function args, σ => do
    let values ← meaningOfItems args σ
    (function.body values).mapError function.failure
  | .list items, σ => do
    let values ← meaningOfItems items σ
    return .list values
  | .collection op source _ none, σ => do
    let v ← meaning source σ
    let items ← v.elements
    return .bool (op == .all || !items.isEmpty)
  | .collection op source none (some body), σ => do
    let v ← meaning source σ
    let items ← v.elements
    let verdict ← quantify op (fun _ => meaning body σ) items
    return .bool verdict
  | .collection op source (some slot) (some body), σ => do
    let v ← meaning source σ
    let items ← v.elements
    let verdict ← quantify op (fun element => meaning body (σ.enter slot element)) items
    return .bool verdict

/-- The values of expressions, from the first to the last. -/
def meaningOfItems : List Expr → Scope → Except EvalError (List Value)
  | [], _ => return []
  | e :: es, σ => do
    let v ← meaning e σ
    let vs ← meaningOfItems es σ
    return v :: vs

end

/-- Collections name their elements by slots behind those that are bound around them, of which there are
some number. -/
inductive WellScoped : Nat → Expr → Prop
  | constant {n : Nat} {v : Value} {t : ValueType} : WellScoped n (.constant v t)
  | parameter {n slot : Nat} {name : Option String} {t : ValueType} :
      WellScoped n (.parameter slot name t)
  | field {n index : Nat} {target : Expr} {name : String} {t : ValueType}
      (target_scoped : WellScoped n target) : WellScoped n (.field target index name t)
  | convert {n : Nat} {operand : Expr} {t : ValueType} (operand_scoped : WellScoped n operand) :
      WellScoped n (.convert operand t)
  | unary {n : Nat} {op : UnaryOp} {operand : Expr} {t : ValueType}
      (operand_scoped : WellScoped n operand) : WellScoped n (.unary op operand t)
  | binary {n : Nat} {op : BinaryOp} {left right : Expr} {t : ValueType}
      (left_scoped : WellScoped n left) (right_scoped : WellScoped n right) :
      WellScoped n (.binary op left right t)
  | call {n : Nat} {f : Function} {args : List Expr} (args_scoped : ∀ e ∈ args, WellScoped n e) :
      WellScoped n (.call f args)
  | list {n : Nat} {items : List Expr} (items_scoped : ∀ e ∈ items, WellScoped n e) :
      WellScoped n (.list items)
  | occupied {n : Nat} {op : CollectionOp} {source : Expr} {slot : Option Nat}
      (source_scoped : WellScoped n source) (slot_le : ∀ s ∈ slot, n ≤ s) :
      WellScoped n (.collection op source slot none)
  | quantified {n : Nat} {op : CollectionOp} {source body : Expr}
      (source_scoped : WellScoped n source) (body_scoped : WellScoped n body) :
      WellScoped n (.collection op source none (some body))
  | named {n slot : Nat} {op : CollectionOp} {source body : Expr}
      (source_scoped : WellScoped n source) (slot_le : n ≤ slot)
      (body_scoped : WellScoped (slot + 1) body) :
      WellScoped n (.collection op source (some slot) (some body))

/-- Typed expressions are well scoped: the slot of an element is the first that is not bound. -/
theorem Typed.wellScoped {wf : Prop} {Γ : List ValueType} {e : Expr} (h : e.Typed wf Γ) :
    e.WellScoped Γ.length := by
  induction h with
  | constant => exact .constant
  | parameter => exact .parameter
  | field _ _ _ ih => exact .field ih
  | convert _ _ _ ih => exact .convert ih
  | unary _ _ ih => exact .unary ih
  | binary _ _ _ _ ihl ihr => exact .binary ihl ihr
  | call _ _ _ ih => exact .call ih
  | list _ _ ih => exact .list ih
  | occupied _ _ slot_eq ih => exact .occupied ih fun s hs => (slot_eq s hs).ge
  | quantified _ _ _ _ ih ihb => exact .quantified ih ihb
  | named _ _ _ _ ih ihb =>
    rw [List.length_append, List.length_singleton] at ihb
    exact .named ih le_rfl ihb

end Expr

/-! ## The length of the environment -/

namespace Eval

variable {α β : Type} {predicate : Eval Value}

theorem length_le_bind (slot : Nat) (v : Value) (env : List Value) :
    env.length ≤ (bind slot v env).length := by
  simp [bind]

/-- The environment is no shorter than it was, whatever the outcome. -/
def Grows (x : Eval α) : Prop := ∀ env, env.length ≤ (x.run env).2.length

/-- The environment has the length it had, whatever the outcome. -/
def Keeps (x : Eval α) : Prop := ∀ env, (x.run env).2.length = env.length

theorem Keeps.grows {x : Eval α} (h : Keeps x) : Grows x := fun env => (h env).ge

theorem Grows.bind {x : Eval α} {f : α → Eval β} (hx : Grows x) (hf : ∀ a, Grows (f a)) :
    Grows (x >>= f) := by
  intro env
  have hlength := hx env
  rw [run_bind]
  rcases hrun : x.run env with ⟨e | a, after⟩
  · rwa [hrun] at hlength
  · rw [hrun] at hlength
    exact hlength.trans (hf a after)

namespace Keeps

theorem pure (a : α) : Keeps (Pure.pure a) := fun _ => rfl

theorem ofExcept (x : Except EvalError α) : Keeps (Eval.ofExcept x) := fun _ => rfl

theorem read (slot : Nat) : Keeps (Eval.read slot) := by
  intro env
  rw [run_read]

theorem bind {x : Eval α} {f : α → Eval β} (hx : Keeps x) (hf : ∀ a, Keeps (f a)) :
    Keeps (x >>= f) := by
  intro env
  have hlength := hx env
  rw [run_bind]
  rcases hrun : x.run env with ⟨e | a, after⟩
  · rwa [hrun] at hlength
  · rw [hrun] at hlength
    exact (hf a after).trans hlength

theorem restoring {x : Eval α} (h : Grows x) : Keeps (Eval.restoring x) :=
  fun env => List.length_take_of_le (h env)

end Keeps

/-- Where a predicate fails or decides, the element it looked at stays behind the environment. -/
theorem Grows.quantifyItems (op : CollectionOp) (h : Keeps predicate) (slot : Option Nat) (items : List Value) :
    Grows (Eval.quantifyItems op slot predicate items) := by
  induction items with
  | nil => exact (Keeps.pure _).grows
  | cons item items ih =>
    have hrest : Grows (predicate >>= fun v => Eval.ofExcept v.truth >>= fun verdict =>
        if verdict == (op == .any) then Pure.pure verdict
        else Eval.quantifyItems op slot predicate items) := by
      refine h.grows.bind fun v => (Keeps.ofExcept v.truth).grows.bind fun verdict => ?_
      split
      · exact (Keeps.pure verdict).grows
      · exact ih
    cases slot with
    | none => exact hrest
    | some slot => exact fun env => (length_le_bind slot item env).trans (hrest _)

end Eval

namespace Expr

mutual

/-- Evaluation leaves the environment with its length. -/
theorem keeps_evaluate : ∀ e : Expr, Eval.Keeps e.evaluate
  | .constant v t => by
    rw [evaluate]
    exact .pure v
  | .parameter slot name t => by
    rw [evaluate]
    exact .read slot
  | .field target index name t => by
    rw [evaluate]
    exact (keeps_evaluate target).bind fun v => .ofExcept _
  | .convert operand t => by
    rw [evaluate]
    exact (keeps_evaluate operand).bind fun v => .ofExcept _
  | .unary op operand t => by
    rw [evaluate]
    exact (keeps_evaluate operand).bind fun v => .ofExcept _
  | .binary op left right t => by
    rw [evaluate]
    refine (keeps_evaluate left).bind fun a => ?_
    split
    · refine (Eval.Keeps.ofExcept a.truth).bind fun decided => ?_
      split
      · exact .pure _
      · refine (keeps_evaluate right).bind fun b => ?_
        exact (Eval.Keeps.ofExcept b.truth).bind fun _ => .pure _
    · exact (keeps_evaluate right).bind fun b => .ofExcept _
  | .call f args => by
    rw [evaluate]
    exact (keeps_evaluateItems args).bind fun vs => .ofExcept _
  | .list items => by
    rw [evaluate]
    exact (keeps_evaluateItems items).bind fun vs => .pure _
  | .collection op source slot none => by
    rw [evaluate]
    exact (keeps_evaluate source).bind fun v => (Eval.Keeps.ofExcept v.elements).bind fun _ => .pure _
  | .collection op source slot (some body) => by
    rw [evaluate]
    refine (keeps_evaluate source).bind fun v => (Eval.Keeps.ofExcept v.elements).bind fun items => ?_
    have hitems := Eval.Grows.quantifyItems op (keeps_evaluate body) slot items
    exact (Eval.Keeps.restoring hitems).bind fun verdict => .pure _

theorem keeps_evaluateItems : ∀ es : List Expr, Eval.Keeps (evaluateItems es)
  | [] => by
    rw [evaluateItems]
    exact .pure _
  | e :: es => by
    rw [evaluateItems]
    exact (keeps_evaluate e).bind fun v => (keeps_evaluateItems es).bind fun vs => .pure _

end

end Expr

/-! ## The contents of the environment -/

namespace Eval

variable {α β : Type} {slot : Nat} {env start : List Value} {predicate : Eval Value}
variable {x : Eval α} {f : α → Eval β} {r : Except EvalError α} {k : α → Except EvalError β}

/-- From an environment the computation comes to a result, and it leaves the environment as it was. -/
def Means (env : List Value) (x : Eval α) (r : Except EvalError α) : Prop := x.run env = (r, env)

namespace Means

theorem pure (a : α) : Means env (Pure.pure a) (.ok a) := rfl

theorem ofExcept (r : Except EvalError α) : Means env (Eval.ofExcept r) r := rfl

theorem bind (hx : Means env x r) (hf : ∀ a, Means env (f a) (k a)) :
    Means env (x >>= f) (r >>= k) := by
  unfold Means at hx ⊢
  rw [run_bind, hx]
  cases r with
  | error e => rfl
  | ok a => exact hf a

theorem restoring (hx : (x.run env).1 = r) (henv : (x.run env).2.take env.length = env) :
    Means env (Eval.restoring x) r :=
  Prod.ext hx henv

end Means

theorem quantifyItems_none (op : CollectionOp) {v : Except EvalError Value} (h : Means env predicate v)
    (items : List Value) :
    Means env (quantifyItems op none predicate items) (quantify op (fun _ => v) items) := by
  induction items with
  | nil => exact .pure _
  | cons item items ih =>
    refine h.bind fun v => (Means.ofExcept v.truth).bind fun verdict => ?_
    split
    · exact .pure verdict
    · exact ih

/-- From an environment that another one is behind, the computation comes to a result and leaves what
the other one is behind again. -/
def Cuts (env start : List Value) (x : Eval α) (r : Except EvalError α) : Prop :=
  (x.run start).1 = r ∧ (x.run start).2.take env.length = env

theorem Cuts.bind (hx : Means start x r) (hstart : start.take env.length = env)
    (hf : ∀ a, Cuts env start (f a) (k a)) : Cuts env start (x >>= f) (r >>= k) := by
  unfold Cuts
  rw [run_bind, show x.run start = _ from hx]
  cases r with
  | error e => exact ⟨rfl, hstart⟩
  | ok a => exact hf a

/-- While predicates run, the environment is the one before them with an element bound. -/
theorem quantifyItems_some (op : CollectionOp) {p : Value → Except EvalError Value}
    (h : ∀ v, Means (bind slot v env) predicate (p v)) (hslot : env.length ≤ slot)
    (items : List Value) (hbind : ∀ v, bind slot v start = bind slot v env)
    (hstart : start.take env.length = env) :
    Cuts env start (quantifyItems op (some slot) predicate items) (quantify op p items) := by
  induction items generalizing start with
  | nil => exact ⟨rfl, hstart⟩
  | cons item items ih =>
    have hcut := take_bind item hslot
    have hrest : Cuts env (bind slot item env) (predicate >>= fun v => ofExcept v.truth >>=
        fun verdict => if verdict == (op == .any) then Pure.pure verdict
          else quantifyItems op (some slot) predicate items) (quantify op p (item :: items)) := by
      refine Cuts.bind (h item) hcut fun v => Cuts.bind (.ofExcept v.truth) hcut fun verdict => ?_
      split
      · exact ⟨rfl, hcut⟩
      · exact ih (fun v => bind_bind item v hslot) hcut
    rw [← hbind] at hrest
    exact hrest

end Eval

namespace Expr

variable {σ : Scope}

theorem means_evaluateItems {es : List Expr}
    (h : ∀ e ∈ es, Eval.Means σ.env e.evaluate (e.meaning σ)) :
    Eval.Means σ.env (evaluateItems es) (meaningOfItems es σ) := by
  induction es with
  | nil =>
    rw [evaluateItems, meaningOfItems]
    exact .pure []
  | cons e es ih =>
    rw [evaluateItems, meaningOfItems]
    refine (h e List.mem_cons_self).bind fun v => ?_
    exact (ih fun e he => h e (List.mem_cons_of_mem _ he)).bind fun vs => .pure _

/-- Evaluation of a well scoped expression comes to its meaning and leaves the environment as it was. -/
theorem WellScoped.means {n : Nat} {e : Expr} (h : e.WellScoped n) (hσ : σ.Nested)
    (hsize : σ.size = n) : Eval.Means σ.env e.evaluate (e.meaning σ) := by
  induction h generalizing σ with
  | @constant _ v =>
    rw [evaluate, meaning]
    exact .pure v
  | @parameter _ slot =>
    rw [evaluate, meaning]
    unfold Eval.Means
    rw [Eval.run_read, hσ.getElem?_env]
    cases σ.value? slot <;> rfl
  | field _ ih =>
    rw [evaluate, meaning]
    exact (ih hσ hsize).bind fun v => .ofExcept _
  | convert _ ih =>
    rw [evaluate, meaning]
    exact (ih hσ hsize).bind fun v => .ofExcept _
  | unary _ ih =>
    rw [evaluate, meaning]
    exact (ih hσ hsize).bind fun v => .ofExcept _
  | binary _ _ ihl ihr =>
    rw [evaluate, meaning]
    refine (ihl hσ hsize).bind fun a => ?_
    split
    · refine (Eval.Means.ofExcept a.truth).bind fun decided => ?_
      split
      · exact .pure _
      · refine (ihr hσ hsize).bind fun b => ?_
        exact (Eval.Means.ofExcept b.truth).bind fun _ => .pure _
    · exact (ihr hσ hsize).bind fun b => .ofExcept _
  | call _ ih =>
    rw [evaluate, meaning]
    exact (means_evaluateItems fun e he => ih e he hσ hsize).bind fun vs => .ofExcept _
  | list _ ih =>
    rw [evaluate, meaning]
    exact (means_evaluateItems fun e he => ih e he hσ hsize).bind fun vs => .pure _
  | @occupied _ op source slot _ _ ih =>
    rw [evaluate, meaning]
    exact (ih hσ hsize).bind fun v => (Eval.Means.ofExcept v.elements).bind fun _ => .pure _
  | @quantified _ op _ _ _ _ ih ihb =>
    rw [evaluate, meaning]
    refine (ih hσ hsize).bind fun v => (Eval.Means.ofExcept v.elements).bind fun items => ?_
    have hitems := Eval.quantifyItems_none op (ihb hσ hsize) items
    refine (Eval.Means.restoring (congrArg Prod.fst hitems) ?_).bind fun verdict => .pure _
    rw [show Prod.snd _ = σ.env from congrArg Prod.snd hitems, List.take_length]
  | @named _ slot op _ body _ slot_le _ ih ihb =>
    rw [evaluate, meaning]
    refine (ih hσ hsize).bind fun v => (Eval.Means.ofExcept v.elements).bind fun items => ?_
    subst hsize
    have hbody (v : Value) : Eval.Means (Eval.bind slot v σ.env) body.evaluate
        (body.meaning (σ.enter slot v)) := ihb (.enter v hσ slot_le) rfl
    have hslot : σ.env.length ≤ slot := hσ.length_env.trans_le slot_le
    obtain ⟨hresult, hafter⟩ := Eval.quantifyItems_some op hbody hslot items (fun _ => rfl)
      List.take_length
    exact (Eval.Means.restoring hresult hafter).bind fun verdict => .pure _

end Expr

/-- Evaluation leaves the environment with its length. Where every collection names its element by a slot
behind those bound around it, as in all filters, the environment is what it was, and the slots in a
predicate hold the elements of the collections around it, also after a collection inside it has run or
failed. -/
theorem environment_restored :
    (∀ (e : Expr) (env : List Value), (e.evaluate.run env).2.length = env.length) ∧
    (∀ (e : Expr) (env : List Value), e.WellScoped env.length → (e.evaluate.run env).2 = env) ∧
    (∀ (σ : Scope) (e : Expr), σ.Nested → e.WellScoped σ.size →
      e.evaluate.run σ.env = (e.meaning σ, σ.env) ∧
      ∀ x ∈ σ.elements, (Eval.read x.1).run (e.evaluate.run σ.env).2 = (.ok x.2, σ.env)) ∧
    ∀ (text : String) (record : RecordType) (f : Lambda) (row : Value),
      Filter.parse text record = .ok f → f.body.WellScoped [row].length ∧
        f.body.evaluate.run [row] = (f.body.meaning ⟨[row], []⟩, [row]) := by
  refine ⟨Expr.keeps_evaluate, fun e env he => ?_, fun σ e hσ he => ?_, fun text record f row h => ?_⟩
  · exact congrArg Prod.snd (he.means (.start env) rfl)
  · have hmeans := he.means hσ rfl
    refine ⟨hmeans, fun x hx => ?_⟩
    rw [show (e.evaluate.run σ.env).2 = σ.env from congrArg Prod.snd hmeans, Eval.run_read,
      hσ.getElem?_env, hσ.value?_of_mem hx]
  · obtain ⟨-, hbody, -⟩ := @Filter.typed_of_parse False text record f nofun h
    exact ⟨hbody.wellScoped, hbody.wellScoped.means (.start [row]) rfl⟩

/-- A collection inside of another one, whose predicate is no truth value. -/
def unsettledMarks : Expr :=
  .collection .any (.list [.constant (.string "x") .string]) (some 2) (some (.parameter 2 none .string))

/-- A filter that fails in the second of its elements, and a collection that fails inside of another. -/
theorem environment_restored_marked :
    ∃ f, Filter.parse markedFilter articleType = .ok f ∧
      (f.body.evaluate.run [halfMarkedArticle]).1.toOption.isNone = true ∧
      (f.body.evaluate.run [halfMarkedArticle]).2 = [halfMarkedArticle] ∧
      let σ := Scope.enter ⟨[halfMarkedArticle], []⟩ 1 (.string "t")
      unsettledMarks.WellScoped σ.size ∧
      (unsettledMarks.evaluate.run σ.env).1 = .error (.typeMismatch (.type .bool) (.string "x")) ∧
      (Eval.read 1).run (unsettledMarks.evaluate.run σ.env).2 = (.ok (.string "t"), σ.env) := by
  obtain ⟨f, hf, hfails⟩ := (Option.any_eq_true _ _).1 (Bool.and_eq_true_iff.1 markedFilter_runs).2
  have hf := toOption_eq_some.1 hf
  have hscoped : unsettledMarks.WellScoped 2 :=
    .named (.list (List.forall_mem_singleton.2 .constant)) le_rfl .parameter
  have hnested : (Scope.enter ⟨[halfMarkedArticle], []⟩ 1 (.string "t")).Nested :=
    .enter _ (.start _) le_rfl
  obtain ⟨hbody, -⟩ := environment_restored.2.2.2 _ _ f halfMarkedArticle hf
  exact ⟨f, hf, hfails, environment_restored.2.1 _ _ hbody, hscoped, rfl,
    (environment_restored.2.2.1 _ _ hnested hscoped).2 (1, .string "t") List.mem_cons_self⟩

end Parlance
