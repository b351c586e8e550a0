import Mathlib.Data.List.TakeWhile
import Parlance.ParseState.Apply

/-!
# What the steps of a parse do

Each operation on a parse state is described once: `Split` for the operands that an operator takes,
`Reduced` for a reduction, `Called` for a function call, `Enclosed` for what a close bracket makes of
its contents and `Named` for an accessor. Later proofs go by cases on the descriptions and do not open
the operations again.
-/

namespace Parlance

/-! ## Results -/

theorem bind_eq_ok {ε α β : Type} {x : Except ε α} {f : α → Except ε β} {b : β} :
    (x >>= f) = .ok b ↔ ∃ a, x = .ok a ∧ f a = .ok b := by
  cases x with
  | error e => simp [bind, Except.bind]
  | ok a => simp [bind, Except.bind]

theorem map_eq_ok {ε α β : Type} {x : Except ε α} {f : α → β} {b : β} :
    x.map f = .ok b ↔ ∃ a, x = .ok a ∧ f a = b := by
  cases x <;> simp [Except.map]

@[simp] theorem mapError_eq_ok {ε ε' α : Type} {f : ε → ε'} {x : Except ε α} {a : α} :
    x.mapError f = .ok a ↔ x = .ok a := by
  cases x <;> simp [Except.mapError]

theorem bind_eq_error {ε α β : Type} {x : Except ε α} {f : α → Except ε β} {e : ε} :
    x >>= f = .error e ↔ x = .error e ∨ ∃ a, x = .ok a ∧ f a = .error e := by
  cases x with
  | error e' => simp [bind, Except.bind]
  | ok a => simp [bind, Except.bind]

theorem toOption_eq_some {ε α : Type} {x : Except ε α} {a : α} :
    x.toOption = some a ↔ x = .ok a := by
  cases x <;> simp [Except.toOption]

theorem toOption_bind {ε α β : Type} (x : Except ε α) (f : α → Except ε β) :
    (x >>= f).toOption = x.toOption.bind fun a => (f a).toOption := by
  cases x <;> rfl

@[simp] theorem checked_eq_ok {α : Type} {e : Extent} {r : Except Refusal α} {a : α} :
    e.checked r = .ok a ↔ r = .ok a := by
  cases r <;> simp [Extent.checked, Except.mapError]

@[simp] theorem fail_ne_ok {α : Type} {e : Extent} {fault : Fault} {a : α} :
    (e.fail fault = .ok a) ↔ False := by
  simp [Extent.fail]

/-! ## Operands of operators -/

/-- A stack that an operator splits: its operands to the right on top, then those to the left, each
list in the order of the text. -/
structure Split {α : Type} (extent : α → Extent) (operator : Extent) (positions : List Side)
    (boundary : Nat) (stack left right rest : List α) : Prop where
  stack_eq : stack = right.reverse ++ (left.reverse ++ rest)
  length_right : right.length = positions.count .right
  length_left : left.length = positions.count .left
  after : ∀ x ∈ right, operator.stop ≤ (extent x).start
  before : ∀ x ∈ (left.reverse ++ rest).head?, (extent x).start < operator.stop
  inside : ∀ x ∈ left, boundary ≤ (extent x).start

theorem drop_length_takeWhile {α : Type} (p : α → Bool) (l : List α) :
    l.drop (l.takeWhile p).length = l.dropWhile p := by
  induction l with
  | nil => rfl
  | cons y l ih => by_cases hy : p y = true <;> simp [hy, ih]

theorem takeWhile_append_of_head? {α : Type} {p : α → Bool} {a b : List α}
    (ha : ∀ x ∈ a, p x = true) (hb : ∀ x ∈ b.head?, p x = false) :
    (a ++ b).takeWhile p = a := by
  rw [List.takeWhile_append_of_pos ha]
  cases b with
  | nil => simp
  | cons x b => simp [hb x rfl]

theorem prefix_append_drop {α : Type} {a l : List α} (h : a <+: l) : a ++ l.drop a.length = l := by
  obtain ⟨b, rfl⟩ := h
  simp

/-- An operator finds its operands exactly where the stack splits. -/
theorem takeOperands_eq_ok {op : Extent} {positions : List Side} {boundary : Nat}
    {operands args rest : List Operand} :
    takeOperands op positions boundary operands = .ok (args, rest) ↔
      ∃ left right, Split Operand.extent op positions boundary operands left right rest ∧
        args = Operand.arrange positions left right := by
  constructor
  · intro h
    have hpre : (operands.takeWhile (·.extent.rightOf op)) <+: operands :=
      List.takeWhile_prefix _
    have hhead : ∀ x ∈ (operands.drop (operands.takeWhile (·.extent.rightOf op)).length).head?,
        x.extent.rightOf op = false := by
      rw [drop_length_takeWhile]
      intro x hx
      have := List.head?_dropWhile_not (fun o : Operand => o.extent.rightOf op) operands
      rw [Option.mem_def.1 hx] at this
      simpa using this
    simp only [takeOperands, Operand.splitRight, Operand.splitLeft, List.length_reverse] at h
    generalize hR : operands.takeWhile (·.extent.rightOf op) = R at *
    generalize hD : operands.drop R.length = D at *
    have hL : ((D.take (positions.count .left)).takeWhile (boundary ≤ ·.extent.start)) <+: D :=
      (List.takeWhile_prefix _).trans (List.take_prefix _ _)
    have hle := (List.takeWhile_prefix (p := fun o : Operand => decide (boundary ≤ o.extent.start))
      (l := D.take (positions.count .left))).length_le
    generalize hL' : (D.take (positions.count .left)).takeWhile (boundary ≤ ·.extent.start) = L at *
    split at h
    · simp at h
    split at h
    · simp at h
    split at h
    · simp at h
    injection h with h
    injection h with hargs hrest
    refine ⟨L.reverse, R.reverse, ⟨?_, ?_, ?_, ?_, ?_, ?_⟩, hargs.symm⟩
    · rw [List.reverse_reverse, List.reverse_reverse, ← hrest, prefix_append_drop hL, ← hD,
        prefix_append_drop hpre]
    · simp only [List.length_reverse]; omega
    · simp only [List.length_take] at hle
      simp only [List.length_reverse]; omega
    · intro x hx
      rw [List.mem_reverse, ← hR] at hx
      simpa [Extent.rightOf] using List.mem_takeWhile_imp hx
    · intro x hx
      rw [List.reverse_reverse, ← hrest, prefix_append_drop hL] at hx
      simpa [Extent.rightOf] using hhead x hx
    · intro x hx
      rw [List.mem_reverse, ← hL'] at hx
      simpa using List.mem_takeWhile_imp hx
  · rintro ⟨left, right, hs, rfl⟩
    have hR : operands.takeWhile (·.extent.rightOf op) = right.reverse := by
      rw [hs.stack_eq]
      refine takeWhile_append_of_head? (fun x hx => ?_) fun x hx => ?_
      · simpa [Extent.rightOf] using hs.after x (List.mem_reverse.1 hx)
      · simpa [Extent.rightOf] using hs.before x hx
    have hD : operands.drop right.length = left.reverse ++ rest := by
      rw [hs.stack_eq, ← List.length_reverse, List.drop_left]
    have hL : ((left.reverse ++ rest).take (positions.count .left)).takeWhile
        (boundary ≤ ·.extent.start) = left.reverse := by
      rw [← hs.length_left, ← List.length_reverse, List.take_left, List.takeWhile_eq_self_iff]
      intro x hx
      simpa using hs.inside x (List.mem_reverse.1 hx)
    simp only [takeOperands, Operand.splitRight, Operand.splitLeft, hR, List.length_reverse, hD, hL,
      List.reverse_reverse]
    rw [if_neg (by rw [hs.length_right]; omega), if_neg (by rw [hs.length_right]; omega),
      if_neg (by rw [hs.length_left]; omega), ← List.length_reverse, List.drop_left]

namespace Split

variable {α β : Type} {op : Extent} {positions : List Side} {boundary : Nat}

/-- A stack splits as the operands that its elements carry do. -/
theorem of_map {extent : α → Extent} {f : β → α} {stack : List β} {left right rest : List α}
    (h : Split extent op positions boundary (stack.map f) left right rest) :
    ∃ left' right' rest', left = left'.map f ∧ right = right'.map f ∧ rest = rest'.map f ∧
      Split (extent ∘ f) op positions boundary stack left' right' rest' := by
  obtain ⟨r, s, hs, hr, hlr⟩ := List.map_eq_append_iff.1 h.stack_eq
  obtain ⟨l, rest', hs', hl, hrest⟩ := List.map_eq_append_iff.1 hlr
  obtain rfl : right = r.reverse.map f := by rw [List.map_reverse, hr, List.reverse_reverse]
  obtain rfl : left = l.reverse.map f := by rw [List.map_reverse, hl, List.reverse_reverse]
  refine ⟨l.reverse, r.reverse, rest', rfl, rfl, hrest.symm, ⟨?_, ?_, ?_, ?_, ?_, ?_⟩⟩
  · simp [hs, hs']
  · simpa using h.length_right
  · simpa using h.length_left
  · intro x hx
    exact h.after (f x) (List.mem_map_of_mem hx)
  · intro x hx
    refine h.before (f x) ?_
    rw [← hrest, ← List.map_reverse, ← List.map_append, List.head?_map, Option.mem_def.1 hx]
    rfl
  · intro x hx
    exact h.inside (f x) (List.mem_map_of_mem hx)

theorem map {extent : α → Extent} {f : β → α} {stack left right rest : List β}
    (h : Split (extent ∘ f) op positions boundary stack left right rest) :
    Split extent op positions boundary (stack.map f) (left.map f) (right.map f) (rest.map f) := by
  refine ⟨?_, ?_, ?_, ?_, ?_, ?_⟩
  · rw [h.stack_eq]; simp
  · simpa using h.length_right
  · simpa using h.length_left
  · intro x hx
    obtain ⟨y, hy, rfl⟩ := List.mem_map.1 hx
    exact h.after y hy
  · intro x hx
    rw [← List.map_reverse, ← List.map_append, List.head?_map] at hx
    obtain ⟨y, hy, rfl⟩ := Option.map_eq_some_iff.1 hx
    exact h.before y hy
  · intro x hx
    obtain ⟨y, hy, rfl⟩ := List.mem_map.1 hx
    exact h.inside y hy

variable {extent : α → Extent} {stack left right rest : List α}

theorem take_right (h : Split extent op positions boundary stack left right rest) :
    stack.take (positions.count .right) = right.reverse := by
  rw [h.stack_eq, ← h.length_right, ← List.length_reverse, List.take_left]

theorem drop_right (h : Split extent op positions boundary stack left right rest) :
    stack.drop (positions.count .right) = left.reverse ++ rest := by
  rw [h.stack_eq, ← h.length_right, ← List.length_reverse, List.drop_left]

theorem take_left (h : Split extent op positions boundary stack left right rest) :
    (left.reverse ++ rest).take (positions.count .left) = left.reverse := by
  rw [← h.length_left, ← List.length_reverse, List.take_left]

theorem drop_left (h : Split extent op positions boundary stack left right rest) :
    (left.reverse ++ rest).drop (positions.count .left) = rest := by
  rw [← h.length_left, ← List.length_reverse, List.drop_left]

end Split

/-- The arguments that stand at the positions of a side. -/
def atSide {α : Type} (side : Side) (positions : List Side) (args : List α) : List α :=
  ((positions.zip args).filter (·.1 = side)).map (·.2)

theorem atSide_map {α β : Type} (side : Side) (positions : List Side) (f : α → β) (args : List α) :
    atSide side positions (args.map f) = (atSide side positions args).map f := by
  simp only [atSide, List.zip_map_right, List.filter_map, List.map_map]
  rfl

/-- Every position of a side has the operand of that side whose turn it is. -/
theorem arrange_spec {positions : List Side} {left right : List Operand}
    (hl : left.length = positions.count .left) (hr : right.length = positions.count .right) :
    (Operand.arrange positions left right).length = positions.length ∧
      atSide .left positions (Operand.arrange positions left right) = left ∧
      atSide .right positions (Operand.arrange positions left right) = right := by
  induction positions generalizing left right with
  | nil => simp_all [Operand.arrange, atSide]
  | cons side positions ih =>
    cases side with
    | left =>
      cases left with
      | nil => simp at hl
      | cons x left =>
        obtain ⟨h1, h2, h3⟩ := @ih left right (by simpa using hl) (by simpa using hr)
        simp only [atSide] at h2 h3
        simp [Operand.arrange, atSide, h1, h2, h3]
    | right =>
      cases right with
      | nil => simp at hr
      | cons x right =>
        obtain ⟨h1, h2, h3⟩ := @ih left right (by simpa using hl) (by simpa using hr)
        simp only [atSide] at h2 h3
        simp [Operand.arrange, atSide, h1, h2, h3]

theorem mem_arrange {positions : List Side} {left right : List Operand} {x : Operand}
    (h : x ∈ Operand.arrange positions left right) : x ∈ left ∨ x ∈ right := by
  fun_induction Operand.arrange positions left right <;> grind

/-! ## Reduction -/

/-- Kinds that a reduction passes over. -/
def RuleKind.isInert (k : RuleKind) : Bool :=
  k matches terminal | operand _ | collectionAccessor | bracketClose ..

/-- What a reduction makes of the operands. -/
inductive Reduced (g : Grammar) (top : Activation) (below : List Activation)
    (operands : List Operand) : List Operand → Prop
  | operation {positions : List Side} {precedence : Option Int} {build : OperatorBuilder}
      {left right rest : List Operand} {expr : Expr}
      (kind : g.kind top.rule = .operator positions precedence build)
      (split : Split Operand.extent top.extent positions (boundaryOf below) operands left right rest)
      (built : build top.token.text ((Operand.arrange positions left right).map Operand.expr) =
        .ok expr) :
      Reduced g top below operands (⟨expr,
        top.extent.coverAll ((Operand.arrange positions left right).map Operand.extent)⟩ :: rest)
  | inert (kind : (g.kind top.rule).isInert = true) : Reduced g top below operands operands

theorem reduce_eq_ok {g : Grammar} {top : Activation} {below : List Activation}
    {operands results : List Operand} :
    reduce g top below operands = .ok results ↔ Reduced g top below operands results := by
  constructor
  · intro h
    unfold reduce at h
    split at h
    · rename_i positions precedence build hk
      obtain ⟨⟨args, rest⟩, htake, h⟩ := bind_eq_ok.1 h
      obtain ⟨left, right, hs, rfl⟩ := takeOperands_eq_ok.1 htake
      obtain ⟨expr, hb, h⟩ := bind_eq_ok.1 h
      cases h
      exact .operation hk hs (checked_eq_ok.1 hb)
    · simp at h
    · simp at h
    · simp at h
    · simp at h
    · cases h
      refine .inert ?_
      cases hk : g.kind top.rule <;> simp_all [RuleKind.isInert]
  · intro h
    cases h with
    | @operation positions precedence build left right rest expr hk hs hb =>
      simp only [reduce, hk]
      rw [bind_eq_ok]
      refine ⟨(_, rest), takeOperands_eq_ok.2 ⟨left, right, hs, rfl⟩, ?_⟩
      rw [bind_eq_ok]
      exact ⟨expr, checked_eq_ok.2 hb, rfl⟩
    | inert hk =>
      unfold reduce
      cases h : g.kind top.rule <;> simp_all [RuleKind.isInert]

/-! ## Calls -/

/-- Arguments converted one by one to declared types. -/
inductive Converted : List Expr → List ValueType → List Expr → Prop
  | nil : Converted [] [] []
  | cons {e arg : Expr} {type : ValueType} {exprs args : List Expr} {types : List ValueType}
      (head : e.convertTo type = .ok (some arg)) (tail : Converted exprs types args) :
      Converted (e :: exprs) (type :: types) (arg :: args)

/-- What an overload makes of its arguments before it builds from them: each is converted to its
declared type, or all stay as they are if any number of them will do. -/
inductive Overload.Passes (o : Overload) (exprs : List Expr) : List Expr → Prop
  | converted {types : List ValueType} {args : List Expr} (parameters : o.parameters = some types)
      (converted : Converted exprs types args) : Passes o exprs args
  | variadic (parameters : o.parameters = none) : Passes o exprs exprs

/-- What a function makes of the contents of its bracket: one of its overloads builds from all of them,
in their order. -/
inductive Called (overloads : List Overload) (contents : List Operand) (opening close : Extent) :
    Operand → Prop
  | intro {o : Overload} {args : List Expr} {expr : Expr} (mem : o ∈ overloads)
      (passes : o.Passes (contents.map Operand.expr) args) (built : o.build args = .ok expr) :
      Called overloads contents opening close ⟨expr, (opening.cover
        (if contents.isEmpty then opening.gap close else Operand.coverAll contents)).cover close⟩

theorem converted_of_convertArgs {operands : List Operand} {types : List ValueType}
    {args : List Expr} (hlen : operands.length = types.length)
    (h : convertArgs operands types = .ok (.ok args)) :
    Converted (operands.map Operand.expr) types args := by
  induction operands generalizing types args with
  | nil =>
    cases types with
    | nil => cases h; exact .nil
    | cons type types => simp at hlen
  | cons x operands ih =>
    cases types with
    | nil => simp at hlen
    | cons type types =>
      unfold convertArgs at h
      split at h
      · rename_i expr hx
        obtain ⟨rest, hr, h⟩ := bind_eq_ok.1 h
        cases rest with
        | error m => cases h
        | ok rest =>
          cases h
          exact .cons hx (ih (by simpa using hlen) hr)
      · cases h
      · simp at h
      · simp at h

theorem passes_of_convert {o : Overload} {contents : List Operand} {args : List Expr}
    (hacc : o.accepts contents.length = true) (h : o.convert contents = .ok (.ok args)) :
    o.Passes (contents.map Operand.expr) args := by
  unfold Overload.convert at h
  split at h
  · rename_i types ht
    refine .converted ht (converted_of_convertArgs ?_ h)
    have : types.length = contents.length := by
      simpa [Overload.accepts, Overload.arity?, ht] using hacc
    exact this.symm
  · rename_i ht
    cases h
    exact .variadic ht

theorem exists_of_callFirst {contents : List Operand} {opening args : Extent} {single : Bool}
    {candidates : List Overload} {expr : Expr}
    (h : callFirst contents opening args single candidates = .ok expr) :
    ∃ o ∈ candidates, ∃ exprs, o.convert contents = .ok (.ok exprs) ∧ o.build exprs = .ok expr := by
  induction candidates with
  | nil => simp [callFirst] at h
  | cons o candidates ih =>
    obtain ⟨r, hr, h⟩ := bind_eq_ok.1 h
    cases r with
    | ok exprs => exact ⟨o, List.mem_cons_self, exprs, hr, checked_eq_ok.1 h⟩
    | error m =>
      dsimp only at h
      split at h
      · simp at h
      · obtain ⟨o', ho', rest⟩ := ih h
        exact ⟨o', List.mem_cons_of_mem o ho', rest⟩

theorem mem_candidates {overloads : List Overload} {count : Nat} {o : Overload} :
    o ∈ Overload.candidates overloads count ↔ o ∈ overloads ∧ o.accepts count = true := by
  simp only [Overload.candidates, List.mem_append, List.mem_filter, ← and_or_left]
  cases o.arity? <;> simp

theorem called_of_callFunction {overloads : List Overload} {contents : List Operand}
    {opening close : Extent} {result : Operand}
    (h : callFunction overloads contents opening close = .ok result) :
    Called overloads contents opening close result := by
  unfold callFunction at h
  dsimp only at h
  split at h
  · simp at h
  · obtain ⟨expr, hfirst, h⟩ := bind_eq_ok.1 h
    cases h
    obtain ⟨o, ho, args, hconv, hbuild⟩ := exists_of_callFirst hfirst
    obtain ⟨hmem, hacc⟩ := mem_candidates.1 ho
    exact .intro hmem (passes_of_convert hacc hconv) hbuild

/-! ## Brackets -/

/-- What a close bracket makes of the contents of the bracket that waited on `s`. -/
inductive Enclosed (g : Grammar) (s : ParseState) (top : Activation) (contents : List Operand)
    (close : Extent) : ParseState → Prop
  | call {overloads : List Overload} {result : Operand}
      (kind : g.kind top.rule = .functionCall overloads)
      (called : callFunction overloads contents top.extent close = .ok result) :
      Enclosed g s top contents close (s.pushOperand result)
  | collection {build : CollectionBuilder} {source : Operand} {rest : List Operand}
      {element : ValueType} {expr : Expr}
      (kind : g.kind top.rule = .collectionBracket build) (single : contents.length ≤ 1)
      (operands : s.operands = source :: rest) (before : source.extent.stop ≤ top.extent.start)
      (element_eq : source.expr.type.element? = some element)
      (built : build top.token.text source.expr
        ⟨top.slot.bind fun slot => s.parameters[slot]?.map (slot, ·),
          contents.head?.map Operand.expr⟩ = .ok expr) :
      Enclosed g s top contents close
        ⟨match top.slot with
          | some slot => s.parameters.take slot
          | none => s.parameters,
          ⟨expr, (source.extent.cover top.extent).cover close⟩ :: rest, s.operators⟩
  | bracket {inner : Operand} (kind : (∀ overloads, g.kind top.rule ≠ .functionCall overloads) ∧
        ∀ build, g.kind top.rule ≠ .collectionBracket build)
      (single : contents = [inner]) :
      Enclosed g s top contents close
        (s.pushOperand ⟨inner.expr, (top.extent.cover inner.extent).cover close⟩)

theorem takeSource_eq_ok {opening : Extent} {operands rest : List Operand} {source : Operand} :
    takeSource opening operands = .ok (source, rest) ↔
      operands = source :: rest ∧ source.extent.stop ≤ opening.start := by
  cases operands with
  | nil => simp [takeSource]
  | cons o operands =>
    simp only [takeSource, Extent.leftOf, decide_eq_true_eq]
    split <;> simp <;> grind

theorem eq_cons_of_takeBetween? {a b : Extent} {operands rest : List Operand} {x : Operand}
    (h : takeBetween? a b operands = some (x, rest)) : operands = x :: rest := by
  cases operands with
  | nil => cases h
  | cons y operands =>
    rw [takeBetween?, Option.ite_none_right_eq_some, Option.some.injEq, Prod.mk.injEq] at h
    rw [h.2.1, h.2.2]

theorem applyContents_eq_ok {g : Grammar} {s s' : ParseState} {top : Activation}
    {contents : List Operand} {close : Extent} :
    s.applyContents g top contents close = .ok s' ↔ Enclosed g s top contents close s' := by
  constructor
  · intro h
    unfold ParseState.applyContents at h
    split at h
    · rename_i overloads hk
      obtain ⟨result, hc, h⟩ := bind_eq_ok.1 h
      cases h
      exact .call hk hc
    · rename_i build hk
      dsimp only at h
      split at h
      · simp [bind_eq_ok] at h
      rename_i hlen
      obtain ⟨⟨source, rest⟩, hs, h⟩ := bind_eq_ok.1 h
      obtain ⟨hs, hb⟩ := takeSource_eq_ok.1 hs
      cases he : source.expr.type.element? with
      | none => simp [he, bind_eq_ok] at h
      | some element =>
        simp only [he, Option.isNone_some, Bool.false_eq_true, if_false] at h
        obtain ⟨expr, hbuild, h⟩ := bind_eq_ok.1 h
        cases h
        refine .collection hk ?_ hs hb he (checked_eq_ok.1 hbuild)
        match contents, hlen with
        | [], _ => simp
        | [_], _ => simp
        | _ :: other :: others, hlen => exact absurd rfl (hlen _ other others)
    · rename_i hf hc
      obtain ⟨result, hs, h⟩ := bind_eq_ok.1 h
      cases h
      unfold singleContent at hs
      split at hs
      · simp at hs
      · cases hs
        exact .bracket ⟨hf, hc⟩ rfl
      · simp at hs
  · intro h
    cases h with
    | call hk hc => simp only [ParseState.applyContents, hk, hc]; rfl
    | @collection build source rest element expr hk h1 hs hb he hbuild =>
      simp only [ParseState.applyContents, hk]
      split
      · simp at h1
      · refine bind_eq_ok.2 ⟨(source, rest), takeSource_eq_ok.2 ⟨hs, hb⟩, ?_⟩
        simp only [he, Option.isNone_some, Bool.false_eq_true, if_false]
        exact bind_eq_ok.2 ⟨expr, checked_eq_ok.2 hbuild, rfl⟩
    | @bracket inner hk h1 =>
      subst h1
      unfold ParseState.applyContents
      split
      · exact absurd ‹_› (hk.1 _)
      · exact absurd ‹_› (hk.2 _)
      · rfl

/-! ## Accessors -/

/-- What an accessor makes of a state: the bracket that has just opened over a collection names the
element by a name that is not in scope. -/
inductive Named (g : Grammar) (s : ParseState) (t : Token) : ParseState → Prop
  | intro {top : Activation} {below : List Activation} {source : Operand} {rest : List Operand}
      {build : CollectionBuilder} {element : ValueType}
      (operators : s.operators = top :: below) (kind : g.kind top.rule = .collectionBracket build)
      (unnamed : top.slot = none) (operands : s.operands = source :: rest)
      (before : source.extent.stop ≤ top.extent.start)
      (outside : source.extent.start < top.extent.stop)
      (element_eq : source.expr.type.element? = some element)
      (fresh : (s.parameters.any fun p =>
        p.name.any (Text.eqIgnoreCase · (accessorName t.text))) = false) :
      Named g s t ⟨s.parameters ++ [⟨some (accessorName t.text), element⟩], s.operands,
        { top with slot := some s.parameters.length } :: below⟩

theorem declareAccessor_eq_ok {g : Grammar} {s s' : ParseState} {t : Token} :
    s.declareAccessor g t = .ok s' ↔ Named g s t s' := by
  constructor
  · intro h
    obtain ⟨⟨source, top, below⟩, ha, h⟩ := bind_eq_ok.1 h
    unfold ParseState.accessorSource at ha
    split at ha
    · simp at ha
    rename_i top' below' hops
    cases hk : g.kind top'.rule with
    | collectionBracket build =>
      simp only [hk, Bool.not_true, Bool.false_or] at ha
      split at ha
      · simp at ha
      rename_i hcond
      obtain ⟨⟨source', rest⟩, hs, ha⟩ := bind_eq_ok.1 ha
      cases ha
      obtain ⟨hs, hb⟩ := takeSource_eq_ok.1 hs
      dsimp only at h
      split at h
      · simp at h
      rename_i element he
      split at h
      · simp at h
      rename_i hfresh
      cases h
      simp only [hs, Bool.or_eq_true, Option.isSome_iff_ne_none, ne_eq, List.head?_cons,
        Option.any_some, Extent.rightOf, decide_eq_true_eq, not_or, not_not, Nat.not_le] at hcond
      exact .intro hops hk hcond.1 hs hb hcond.2 he (by simpa using hfresh)
    | _ => simp [hk] at ha
  · rintro ⟨hops, hk, hslot, hs, hb, ho, he, hfresh⟩
    rename_i top below source rest build element
    refine bind_eq_ok.2 ⟨(source, top, below), ?_, ?_⟩
    · simp only [ParseState.accessorSource, hops, hk, hs, hslot, List.head?_cons, Option.any_some,
        Extent.rightOf]
      rw [if_neg (by simp; omega)]
      exact bind_eq_ok.2 ⟨(source, rest), takeSource_eq_ok.2 ⟨rfl, hb⟩, rfl⟩
    · simp only [he, hfresh, Bool.false_eq_true, if_false]
      rfl

/-! ## Runs -/

theorem applyAll_cons {g : Grammar} {s : ParseState} {t : Token} {ts : List Token} :
    s.applyAll g (t :: ts) = s.apply g t >>= fun s => s.applyAll g ts := rfl

theorem applyAll_append {g : Grammar} {s : ParseState} {ts us : List Token} :
    s.applyAll g (ts ++ us) = s.applyAll g ts >>= fun s => s.applyAll g us := by
  induction ts generalizing s with
  | nil => rfl
  | cons t ts ih =>
    rw [List.cons_append, applyAll_cons, applyAll_cons]
    cases s.apply g t with
    | error e => rfl
    | ok s => exact ih

end Parlance
