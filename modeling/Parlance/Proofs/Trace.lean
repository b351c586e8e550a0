import Parlance.Language.Basic
import Parlance.Proofs.Step

/-!
# Derivations

A `Derivation` tells how an operand was built: from the token of an operand, by an operator from the
operands to its left and to its right, or by a bracket from its contents. A `Trace` is a parse state
whose operands carry their derivations. It takes tokens as the state does (`Trace.state_apply`,
`Trace.expr_finish`) and fails exactly when the state does, so that what holds of derivations along a
trace holds of every parse.
-/

namespace Parlance

/-- How an operand was built. Operands of an operator, arguments and delimiters are in the order of the
text. -/
inductive Derivation where
  | token (t : Token)
  | operation (op : Token) (left right : List Derivation)
  | bracket (opening : Token) (inner : Derivation) (close : Token)
  | call (opening : Token) (args : List Derivation) (delimiters : List Token) (close : Token)
  | collection (source : Derivation) (opening : Token) (accessor : Option Token)
      (body : Option Derivation) (close : Token)

/-- An operand and how it was built. -/
structure Derived where
  operand : Operand
  derivation : Derivation

namespace Derived

/-- The extent of the operand. -/
abbrev extent (x : Derived) : Extent := x.operand.extent

/-- The expression of the operand. -/
abbrev expr (x : Derived) : Expr := x.operand.expr

end Derived

/-- What waits, and the accessor that a collection bracket has met. -/
structure Pending where
  activation : Activation
  accessor : Option Token

namespace Pending

/-- The token that waits. -/
abbrev token (a : Pending) : Token := a.activation.token

/-- The place of the rule. -/
abbrev rule (a : Pending) : Nat := a.activation.rule

/-- The extent of the token. -/
abbrev extent (a : Pending) : Extent := a.activation.extent

end Pending

/-- A parse state with the derivations of its operands. -/
structure Trace where
  parameters : List Parameter
  operands : List Derived
  operators : List Pending

namespace Trace

/-- The parse state without derivations. -/
def state (s : Trace) : ParseState :=
  ⟨s.parameters, s.operands.map Derived.operand, s.operators.map Pending.activation⟩

/-- The state before the first token. -/
def start (parameters : List Parameter) : Trace := ⟨parameters, [], []⟩

/-- Puts an operand on its stack. -/
def pushOperand (s : Trace) (x : Derived) : Trace := { s with operands := x :: s.operands }

/-- Lets a token wait. -/
def await (s : Trace) (t : Token) : Trace :=
  { s with operators := ⟨⟨t, none⟩, none⟩ :: s.operators }

/-! ## Reduction -/

/-- Reduces what waited on top. An operator takes its operands to the right from the top of the stack,
then those to the left. -/
def reduce (g : Grammar) (top : Pending) (below : List Pending) (operands : List Derived) :
    Option (List Derived) := do
  let results ← (Parlance.reduce g top.activation (below.map Pending.activation)
    (operands.map Derived.operand)).toOption
  match g.kind top.rule with
  | .operator positions _ _ =>
    let result ← results.head?
    let right := operands.take (positions.count .right)
    let rest := operands.drop (positions.count .right)
    let left := rest.take (positions.count .left)
    some (⟨result, .operation top.token (left.reverse.map Derived.derivation)
      (right.reverse.map Derived.derivation)⟩ :: rest.drop (positions.count .left))
  | _ => some operands

/-- Reduces from the top of a stack of operators while the kinds of their rules allow it. -/
def foldWhile (g : Grammar) (folds : RuleKind → Bool) :
    List Pending → List Derived → Option (List Pending × List Derived)
  | [], operands => some ([], operands)
  | top :: below, operands =>
    if folds (g.kind top.rule) then do
      foldWhile g folds below (← reduce g top below operands)
    else some (top :: below, operands)

/-- Reduces while the kinds of the rules on top allow it. -/
def fold (g : Grammar) (folds : RuleKind → Bool) (s : Trace) : Option Trace := do
  let (operators, operands) ← foldWhile g folds s.operators s.operands
  return ⟨s.parameters, operands, operators⟩

/-! ## Brackets -/

/-- What has been unwound: the bracket that is closed, its contents with the delimiters between them,
and the stacks below. -/
structure Unwound where
  top : Pending
  contents : List Derived
  delimiters : List Token
  operators : List Pending
  operands : List Derived

/-- The operand on top, if it lies between two extents, and those below it. -/
def takeBetween? (a b : Extent) : List Derived → Option (Derived × List Derived)
  | x :: operands => if x.extent.isBetween a b then some (x, operands) else none
  | [] => none

/-- Unwinds operators down to a bracket that `links` closes. -/
def unwind (g : Grammar) (links : BracketLinks) (previous : Extent) (contents : List Derived)
    (delimiters : List Token) : List Pending → List Derived → Option Unwound
  | [], _ => none
  | top :: below, operands =>
    if links.opens.contains top.rule then
      match takeBetween? top.extent previous operands with
      | some (x, rest) => some ⟨top, x :: contents, delimiters, below, rest⟩
      | none => if delimiters.isEmpty then some ⟨top, contents, delimiters, below, operands⟩ else none
    else if links.delimiter = some top.rule then
      match takeBetween? top.extent previous operands with
      | some (x, rest) =>
        unwind g links top.extent (x :: contents) (top.token :: delimiters) below rest
      | none => none
    else do
      unwind g links previous contents delimiters below (← reduce g top below operands)

/-- The derivation of what a bracket makes of its contents, and the operands that stay. -/
def bracketed (g : Grammar) (u : Unwound) (close : Token) : Option (Derivation × List Derived) :=
  match g.kind u.top.rule, u.contents, u.operands with
  | .functionCall _, contents, operands =>
    some (.call u.top.token (contents.map Derived.derivation) u.delimiters close, operands)
  | .collectionBracket _, contents, source :: operands =>
    some (.collection source.derivation u.top.token u.top.accessor
      (contents.head?.map Derived.derivation) close, operands)
  | _, [inner], operands => some (.bracket u.top.token inner.derivation close, operands)
  | _, _, _ => none

/-- Closes a bracket. -/
def close (g : Grammar) (s : Trace) (t : Token) : Option Trace := do
  let u ← unwind g (g.linksOf t.rule) t.extent [] [] s.operators s.operands
  let after ← (ParseState.applyContents g
    ⟨s.parameters, u.operands.map Derived.operand, u.operators.map Pending.activation⟩
    u.top.activation (u.contents.map Derived.operand) t.extent).toOption
  let result ← after.operands.head?
  let (derivation, operands) ← bracketed g u t
  return ⟨after.parameters, ⟨result, derivation⟩ :: operands, u.operators⟩

/-! ## Tokens -/

/-- Names the element of the collection whose bracket has just opened. -/
def declareAccessor (g : Grammar) (s : Trace) (t : Token) : Option Trace := do
  let after ← (s.state.declareAccessor g t).toOption
  match s.operators, after.operators with
  | _ :: below, top :: _ => some ⟨after.parameters, s.operands, ⟨top, some t⟩ :: below⟩
  | _, _ => none

/-- Takes one token. -/
def apply (g : Grammar) (s : Trace) (t : Token) : Option Trace :=
  match g.kind t.rule with
  | .terminal => some s
  | .operand build => do
    let expr ← (build t.text s.parameters).toOption
    return s.pushOperand ⟨⟨expr, t.extent⟩, .token t⟩
  | .operator positions precedence _ => do
    let s ← match precedence with
      | some precedence =>
        if positions.contains .left then s.fold g (yieldsTo precedence) else some s
      | none => some s
    return s.await t
  | .collectionBracket _ => do
    let s ← s.fold g isComplete
    return s.await t
  | .bracketOpen | .functionCall _ | .listDelimiter => some (s.await t)
  | .collectionAccessor => s.declareAccessor g t
  | .bracketClose _ _ => s.close g t

/-- Takes tokens in order. -/
def applyAll (g : Grammar) : Trace → List Token → Option Trace
  | s, [] => some s
  | s, t :: ts => do applyAll g (← s.apply g t) ts

/-- The one element of a list. -/
def sole? : List Derived → Option Derived
  | [x] => some x
  | _ => none

theorem sole?_eq_some {xs : List Derived} {x : Derived} (h : sole? xs = some x) : xs = [x] := by
  match xs, h with
  | [_], h => cases h; rfl

/-- Reduces everything that waits; exactly one operand must remain. -/
def finish (g : Grammar) (s : Trace) : Option Derived := do
  sole? (← s.fold g fun _ => true).operands

/-! ## What a trace takes away -/

/-- What a reduction makes of operands with their derivations. -/
inductive Reduced (g : Grammar) (top : Pending) (below : List Pending) (operands : List Derived) :
    List Derived → Prop
  | operation {positions : List Side} {precedence : Option Int} {build : OperatorBuilder}
      {left right rest : List Derived} {expr : Expr}
      (kind : g.kind top.rule = .operator positions precedence build)
      (split : Split Derived.extent top.extent positions
        (boundaryOf (below.map Pending.activation)) operands left right rest)
      (built : build top.token.text ((Operand.arrange positions (left.map Derived.operand)
        (right.map Derived.operand)).map Operand.expr) = .ok expr) :
      Reduced g top below operands (⟨⟨expr, top.extent.coverAll ((Operand.arrange positions
          (left.map Derived.operand) (right.map Derived.operand)).map Operand.extent)⟩,
        .operation top.token (left.map Derived.derivation) (right.map Derived.derivation)⟩ :: rest)
  | inert (kind : (g.kind top.rule).isInert = true) : Reduced g top below operands operands

theorem reduce_eq_some {g : Grammar} {top : Pending} {below : List Pending}
    {operands results : List Derived} :
    reduce g top below operands = some results ↔ Reduced g top below operands results := by
  constructor
  · intro h
    obtain ⟨plain, hp, h⟩ := Option.bind_eq_some_iff.1 h
    cases reduce_eq_ok.1 (toOption_eq_some.1 hp) with
    | operation hk hs hb =>
      obtain ⟨left, right, rest, rfl, rfl, rfl, hs'⟩ := hs.of_map
      simp only [hk, List.head?_cons, hs'.take_right, hs'.drop_right, hs'.take_left, hs'.drop_left,
        List.reverse_reverse] at h
      cases h
      exact .operation hk hs' hb
    | inert hk =>
      have : results = operands := by
        cases hk' : g.kind top.rule <;> simp_all [RuleKind.isInert]
      subst this
      exact .inert hk
  · intro h
    cases h with
    | operation hk hs hb =>
      refine Option.bind_eq_some_iff.2 ⟨_, toOption_eq_some.2 (reduce_eq_ok.2
        (.operation hk hs.map hb)), ?_⟩
      simp only [hk, List.head?_cons, hs.take_right, hs.drop_right, hs.take_left, hs.drop_left,
        List.reverse_reverse]
      rfl
    | inert hk =>
      refine Option.bind_eq_some_iff.2 ⟨_, toOption_eq_some.2 (reduce_eq_ok.2 (.inert hk)), ?_⟩
      cases hk' : g.kind top.rule <;> simp_all [RuleKind.isInert]

theorem map_reduce (g : Grammar) (top : Pending) (below : List Pending) (operands : List Derived) :
    (reduce g top below operands).map (List.map Derived.operand) =
      (Parlance.reduce g top.activation (below.map Pending.activation)
        (operands.map Derived.operand)).toOption := by
  cases hp : Parlance.reduce g top.activation (below.map Pending.activation)
      (operands.map Derived.operand) with
  | error e => simp [reduce, hp, Except.toOption]
  | ok plain =>
    cases reduce_eq_ok.1 hp with
    | operation hk hs hb =>
      obtain ⟨left, right, rest, rfl, rfl, rfl, hs'⟩ := hs.of_map
      rw [reduce_eq_some.2 (.operation hk hs' hb)]
      rfl
    | inert hk =>
      rw [reduce_eq_some.2 (.inert hk)]
      rfl

theorem map_foldWhile (g : Grammar) (folds : RuleKind → Bool) (operators : List Pending)
    (operands : List Derived) :
    (foldWhile g folds operators operands).map
        (fun (as, xs) => (as.map Pending.activation, xs.map Derived.operand)) =
      (Parlance.foldWhile g folds (operators.map Pending.activation)
        (operands.map Derived.operand)).toOption := by
  induction operators generalizing operands with
  | nil => rfl
  | cons top below ih =>
    simp only [foldWhile, Parlance.foldWhile, List.map_cons]
    split
    · rw [toOption_bind, ← map_reduce]
      cases reduce g top below operands with
      | none => rfl
      | some results => exact ih results
    · rfl

/-- Nothing waits after everything has been reduced. -/
theorem foldWhile_true {g : Grammar} {operators operators' : List Pending}
    {operands results : List Derived}
    (h : foldWhile g (fun _ => true) operators operands = some (operators', results)) :
    operators' = [] := by
  induction operators generalizing operands with
  | nil =>
    cases h
    rfl
  | cons top below ih =>
    obtain ⟨next, -, h⟩ := Option.bind_eq_some_iff.1 h
    exact ih h

/-- What a reduction keeps is kept while operators are reduced. -/
theorem foldWhile_induction {g : Grammar} {folds : RuleKind → Bool}
    {P : List Pending → List Derived → Prop}
    (step : ∀ {top : Pending} {below : List Pending} {operands results : List Derived},
      P (top :: below) operands → Reduced g top below operands results → P below results)
    {operators operators' : List Pending} {operands results : List Derived}
    (h : P operators operands)
    (hf : foldWhile g folds operators operands = some (operators', results)) :
    P operators' results := by
  induction operators generalizing operands with
  | nil =>
    cases hf
    exact h
  | cons top below ih =>
    simp only [foldWhile] at hf
    split at hf
    · obtain ⟨next, hr, hf⟩ := Option.bind_eq_some_iff.1 hf
      exact ih (step h (reduce_eq_some.1 hr)) hf
    · cases hf
      exact h

theorem fold_eq_some {g : Grammar} {folds : RuleKind → Bool} {s s' : Trace} :
    s.fold g folds = some s' ↔
      s'.parameters = s.parameters ∧
        foldWhile g folds s.operators s.operands = some (s'.operators, s'.operands) := by
  simp only [fold, Option.bind_eq_bind, Option.bind_eq_some_iff]
  constructor
  · rintro ⟨r, hr, h⟩
    cases h
    exact ⟨rfl, hr⟩
  · rintro ⟨hp, h⟩
    exact ⟨_, h, by rw [← hp]; rfl⟩

theorem state_fold (g : Grammar) (folds : RuleKind → Bool) (s : Trace) :
    (s.fold g folds).map state = (s.state.foldWhile g folds).toOption := by
  have h := map_foldWhile g folds s.operators s.operands
  simp only [fold, ParseState.foldWhile, state, toOption_bind, ← h]
  cases foldWhile g folds s.operators s.operands <;> rfl

/-- What has been unwound, without derivations. -/
def Unwound.plain (u : Unwound) : Parlance.Unwound :=
  ⟨u.top.activation, u.contents.map Derived.operand, u.operators.map Pending.activation,
    u.operands.map Derived.operand⟩

theorem takeBetween?_eq_some {a b : Extent} {operands rest : List Derived} {x : Derived} :
    takeBetween? a b operands = some (x, rest) ↔
      operands = x :: rest ∧ a.stop ≤ x.extent.start ∧ x.extent.stop ≤ b.start := by
  cases operands with
  | nil => simp [takeBetween?]
  | cons y operands =>
    simp only [takeBetween?, Extent.isBetween, Bool.and_eq_true, decide_eq_true_eq]
    split <;> simp <;> grind

/-- What reductions and delimiters keep holds where the bracket is found that is closed. Then the last
operand is taken, if there is one; there must be one where there is a delimiter. -/
theorem unwind_induction {g : Grammar} {links : BracketLinks}
    {P : Extent → List Derived → List Token → List Pending → List Derived → Prop}
    (reduce : ∀ {previous : Extent} {contents : List Derived} {delimiters : List Token}
      {top : Pending} {below : List Pending} {operands results : List Derived},
      P previous contents delimiters (top :: below) operands →
        Reduced g top below operands results → P previous contents delimiters below results)
    (separate : ∀ {previous : Extent} {contents : List Derived} {delimiters : List Token}
      {top : Pending} {below : List Pending} {x : Derived} {rest : List Derived},
      links.delimiter = some top.rule → top.extent.stop ≤ x.extent.start →
        x.extent.stop ≤ previous.start → P previous contents delimiters (top :: below) (x :: rest) →
          P top.extent (x :: contents) (top.token :: delimiters) below rest)
    {previous : Extent} {contents : List Derived} {delimiters : List Token}
    {operators : List Pending} {operands : List Derived} {u : Unwound}
    (h : P previous contents delimiters operators operands)
    (hu : unwind g links previous contents delimiters operators operands = some u) :
    links.opens.contains u.top.rule = true ∧ ∃ previous contents operands,
      P previous contents u.delimiters (u.top :: u.operators) operands ∧
        ((∃ x, operands = x :: u.operands ∧ u.contents = x :: contents ∧
            u.top.extent.stop ≤ x.extent.start ∧ x.extent.stop ≤ previous.start) ∨
          (u.delimiters = [] ∧ operands = u.operands ∧ u.contents = contents)) := by
  induction operators generalizing previous contents delimiters operands with
  | nil => cases hu
  | cons top below ih =>
    simp only [unwind] at hu
    split at hu
    · rename_i hopens
      split at hu
      · rename_i x rest htake
        obtain ⟨rfl, hafter, hbefore⟩ := takeBetween?_eq_some.1 htake
        cases hu
        exact ⟨hopens, previous, contents, _, h, .inl ⟨x, rfl, rfl, hafter, hbefore⟩⟩
      · split at hu
        · rename_i hempty
          cases hu
          exact ⟨hopens, previous, contents, _, h, .inr ⟨List.isEmpty_iff.1 hempty, rfl, rfl⟩⟩
        · cases hu
    split at hu
    · rename_i hdelimiter
      split at hu
      · rename_i x rest htake
        obtain ⟨rfl, hafter, hbefore⟩ := takeBetween?_eq_some.1 htake
        exact ih (separate hdelimiter hafter hbefore h) hu
      · cases hu
    · obtain ⟨results, hr, hu⟩ := Option.bind_eq_some_iff.1 hu
      exact ih (reduce h (reduce_eq_some.1 hr)) hu

theorem map_takeBetween? (a b : Extent) (operands : List Derived) :
    (takeBetween? a b operands).map (fun (x, rest) => (x.operand, rest.map Derived.operand)) =
      Parlance.takeBetween? a b (operands.map Derived.operand) := by
  cases operands with
  | nil => rfl
  | cons x rest =>
    simp only [takeBetween?, Parlance.takeBetween?, List.map_cons]
    split <;> rfl

theorem map_unwind (g : Grammar) (links : BracketLinks) (close previous : Extent)
    (contents : List Derived) (delimiters : List Token) (operators : List Pending)
    (operands : List Derived) :
    (unwind g links previous contents delimiters operators operands).map Unwound.plain =
      (Parlance.unwind g links close previous (!delimiters.isEmpty) (contents.map Derived.operand)
        (operators.map Pending.activation) (operands.map Derived.operand)).toOption := by
  induction operators generalizing previous contents delimiters operands with
  | nil => rfl
  | cons top below ih =>
    have hbetween := map_takeBetween? top.extent previous operands
    simp only [unwind, Parlance.unwind, List.map_cons, ← hbetween]
    split
    · cases takeBetween? top.extent previous operands with
      | some r => rfl
      | none => cases delimiters <;> rfl
    split
    · cases takeBetween? top.extent previous operands with
      | some r => exact ih top.extent (r.1 :: contents) (top.token :: delimiters) r.2
      | none => rfl
    · rw [toOption_bind, ← map_reduce]
      cases reduce g top below operands with
      | none => rfl
      | some results => exact ih previous contents delimiters results

/-- What closing a bracket makes of a trace. -/
inductive Closed (g : Grammar) (s : Trace) (t : Token) : Trace → Prop
  | call {u : Unwound} {overloads : List Overload} {result : Operand}
      (unwound : unwind g (g.linksOf t.rule) t.extent [] [] s.operators s.operands = some u)
      (kind : g.kind u.top.rule = .functionCall overloads)
      (called : callFunction overloads (u.contents.map Derived.operand) u.top.extent t.extent =
        .ok result) :
      Closed g s t ⟨s.parameters,
        ⟨result, .call u.top.token (u.contents.map Derived.derivation) u.delimiters t⟩ :: u.operands,
        u.operators⟩
  | collection {u : Unwound} {build : CollectionBuilder} {source : Derived} {rest : List Derived}
      {element : ValueType} {expr : Expr}
      (unwound : unwind g (g.linksOf t.rule) t.extent [] [] s.operators s.operands = some u)
      (kind : g.kind u.top.rule = .collectionBracket build) (single : u.contents.length ≤ 1)
      (operands : u.operands = source :: rest) (before : source.extent.stop ≤ u.top.extent.start)
      (element_eq : source.expr.type.element? = some element)
      (built : build u.top.token.text source.expr
        ⟨u.top.activation.slot.bind fun slot => s.parameters[slot]?.map (slot, ·),
          u.contents.head?.map Derived.expr⟩ = .ok expr) :
      Closed g s t
        ⟨match u.top.activation.slot with
          | some slot => s.parameters.take slot
          | none => s.parameters,
          ⟨⟨expr, (source.extent.cover u.top.extent).cover t.extent⟩,
            .collection source.derivation u.top.token u.top.accessor
              (u.contents.head?.map Derived.derivation) t⟩ :: rest, u.operators⟩
  | bracket {u : Unwound} {inner : Derived}
      (unwound : unwind g (g.linksOf t.rule) t.extent [] [] s.operators s.operands = some u)
      (kind : (∀ overloads, g.kind u.top.rule ≠ .functionCall overloads) ∧
        ∀ build, g.kind u.top.rule ≠ .collectionBracket build)
      (single : u.contents = [inner]) :
      Closed g s t ⟨s.parameters,
        ⟨⟨inner.expr, (u.top.extent.cover inner.extent).cover t.extent⟩,
          .bracket u.top.token inner.derivation t⟩ :: u.operands, u.operators⟩

theorem close_eq_some {g : Grammar} {s s' : Trace} {t : Token} :
    s.close g t = some s' ↔ Closed g s t s' := by
  constructor
  · intro h
    obtain ⟨u, hu, h⟩ := Option.bind_eq_some_iff.1 h
    obtain ⟨after, ha, h⟩ := Option.bind_eq_some_iff.1 h
    obtain ⟨result, hr, h⟩ := Option.bind_eq_some_iff.1 h
    obtain ⟨⟨derivation, operands⟩, hd, h⟩ := Option.bind_eq_some_iff.1 h
    cases h
    have ha := applyContents_eq_ok.1 (toOption_eq_some.1 ha)
    cases ha with
    | call hk hc =>
      cases hr
      simp only [bracketed, hk] at hd
      cases hd
      exact .call hu hk hc
    | collection hk h1 ho hb he hbuild =>
      cases hr
      obtain ⟨source, rest, hs, rfl, rfl⟩ := List.map_eq_cons_iff.1 ho
      simp only [bracketed, hk, hs] at hd
      cases hd
      rw [List.head?_map, Option.map_map] at hbuild
      exact .collection hu hk (by simpa using h1) hs hb he hbuild
    | bracket hk h1 =>
      cases hr
      obtain ⟨inner, hi, rfl⟩ : ∃ inner, u.contents = [inner] ∧ inner.operand = _ := by
        simpa using h1
      unfold bracketed at hd
      split at hd
      · exact absurd ‹_› (hk.1 _)
      · exact absurd ‹_› (hk.2 _)
      · rename_i inner' hi' _ _
        obtain rfl : inner' = inner := by simpa [hi] using hi'.symm
        cases hd
        exact .bracket hu hk hi
      · simp at hd
  · intro h
    cases h with
    | call hu hk hc =>
      refine Option.bind_eq_some_iff.2 ⟨_, hu, Option.bind_eq_some_iff.2
        ⟨_, toOption_eq_some.2 (applyContents_eq_ok.2 (.call hk hc)), ?_⟩⟩
      simp only [bracketed, hk]
      rfl
    | @collection u build source rest element expr hu hk h1 ho hb he hbuild =>
      refine Option.bind_eq_some_iff.2 ⟨_, hu, Option.bind_eq_some_iff.2
        ⟨_, toOption_eq_some.2 (applyContents_eq_ok.2 (.collection hk (by simpa using h1)
          (by rw [ho]; rfl) hb he (by rw [List.head?_map, Option.map_map]; exact hbuild))), ?_⟩⟩
      simp only [bracketed, hk, ho]
      rfl
    | @bracket u inner hu hk h1 =>
      refine Option.bind_eq_some_iff.2 ⟨_, hu, Option.bind_eq_some_iff.2
        ⟨_, toOption_eq_some.2 (applyContents_eq_ok.2 (.bracket hk (by rw [h1]; rfl))), ?_⟩⟩
      have hd : bracketed g u t = some (.bracket u.top.token inner.derivation t, u.operands) := by
        unfold bracketed
        split
        · exact absurd ‹_› (hk.1 _)
        · exact absurd ‹_› (hk.2 _)
        · simp_all
        · simp_all
      rw [hd]
      rfl

theorem state_close (g : Grammar) (s : Trace) (t : Token) :
    (s.close g t).map state = (s.state.close g t).toOption := by
  have hunwind := map_unwind g (g.linksOf t.rule) t.extent t.extent [] [] s.operators s.operands
  simp only [List.isEmpty_nil, Bool.not_true, List.map_nil] at hunwind
  simp only [ParseState.close, toOption_bind]
  simp only [state] at hunwind ⊢
  rw [← hunwind]
  cases hu : unwind g (g.linksOf t.rule) t.extent [] [] s.operators s.operands with
  | none => simp [close, hu]
  | some u =>
    simp only [Option.map_some, Option.bind_some]
    cases ha : ParseState.applyContents g ⟨s.parameters, u.plain.operands, u.plain.operators⟩
        u.plain.top u.plain.contents t.extent with
    | error e =>
      have : s.close g t = none := by
        simp only [close, hu, Option.bind_eq_bind, Option.bind_some]
        simp only [Unwound.plain] at ha
        rw [ha]
        rfl
      rw [this]
      rfl
    | ok after =>
      cases applyContents_eq_ok.1 ha with
      | call hk hc =>
        rw [close_eq_some.2 (.call hu hk hc)]
        rfl
      | collection hk h1 ho hb he hbuild =>
        obtain ⟨source, rest, hs, rfl, rfl⟩ := List.map_eq_cons_iff.1 ho
        simp only [Unwound.plain, List.head?_map, Option.map_map, List.length_map] at hbuild h1
        rw [close_eq_some.2 (.collection hu hk h1 hs hb he hbuild)]
        rfl
      | bracket hk h1 =>
        obtain ⟨inner, rest, hi, rfl, hrest⟩ := List.map_eq_cons_iff.1 h1
        obtain rfl := List.map_eq_nil_iff.1 hrest
        rw [close_eq_some.2 (.bracket hu hk hi)]
        rfl

theorem state_declareAccessor (g : Grammar) (s : Trace) (t : Token) :
    (s.declareAccessor g t).map state = (s.state.declareAccessor g t).toOption := by
  cases ha : s.state.declareAccessor g t with
  | error e => simp [declareAccessor, ha, Except.toOption]
  | ok after =>
    cases declareAccessor_eq_ok.1 ha with
    | intro hops hk hslot hs hb ho he hfresh =>
      obtain ⟨top, below, hops', rfl, rfl⟩ := List.map_eq_cons_iff.1 hops
      simp only [declareAccessor, ha, hops']
      rfl

/-- What an accessor makes of a trace. -/
inductive Named (g : Grammar) (s : Trace) (t : Token) : Trace → Prop
  | intro {top : Pending} {below : List Pending} {source : Derived} {rest : List Derived}
      {build : CollectionBuilder} {element : ValueType} (operators : s.operators = top :: below)
      (kind : g.kind top.rule = .collectionBracket build) (unnamed : top.activation.slot = none)
      (operands : s.operands = source :: rest) (before : source.extent.stop ≤ top.extent.start)
      (outside : source.extent.start < top.extent.stop)
      (element_eq : source.expr.type.element? = some element)
      (fresh : (s.parameters.any fun p =>
        p.name.any (Text.eqIgnoreCase · (accessorName t.text))) = false) :
      Named g s t ⟨s.parameters ++ [⟨some (accessorName t.text), element⟩], s.operands,
        ⟨{ top.activation with slot := some s.parameters.length }, some t⟩ :: below⟩

theorem named_of_declareAccessor {g : Grammar} {s s' : Trace} {t : Token}
    (h : s.declareAccessor g t = some s') : Named g s t s' := by
  obtain ⟨after, ha, h⟩ := Option.bind_eq_some_iff.1 h
  cases declareAccessor_eq_ok.1 (toOption_eq_some.1 ha) with
  | intro hops hk hslot hs hb ho he hfresh =>
    obtain ⟨top, below, hops', rfl, rfl⟩ := List.map_eq_cons_iff.1 hops
    obtain ⟨source, rest, hs', rfl, rfl⟩ := List.map_eq_cons_iff.1 hs
    simp only [hops'] at h
    cases h
    exact .intro hops' hk hslot hs' hb ho he hfresh

/-- What waits in both may wait after any steps that agree. -/
theorem state_bind_await {x : Option Trace} {y : Except ParseError ParseState} (t : Token)
    (h : x.map state = y.toOption) :
    (x.bind fun s => some (s.await t)).map state =
      (y >>= fun s => pure (s.await t)).toOption := by
  rw [toOption_bind, ← h]
  cases x <;> rfl

theorem state_apply (g : Grammar) (s : Trace) (t : Token) :
    (s.apply g t).map state = (s.state.apply g t).toOption := by
  unfold apply ParseState.apply
  cases g.kind t.rule with
  | terminal => rfl
  | operand build =>
    cases hb : build t.text s.parameters with
    | error e => simp [state, hb, Except.toOption, Extent.checked, Except.mapError, bind, Except.bind]
    | ok expr => simp [state, hb, Except.toOption, Extent.checked, Except.mapError, bind, Except.bind,
        pure, Except.pure, pushOperand, ParseState.pushOperand]
  | operator positions precedence build =>
    cases precedence with
    | none => rfl
    | some precedence =>
      dsimp only
      split
      · exact state_bind_await t (state_fold g _ s)
      · rfl
  | collectionBracket build => exact state_bind_await t (state_fold g _ s)
  | bracketOpen => rfl
  | functionCall overloads => rfl
  | listDelimiter => rfl
  | collectionAccessor => exact state_declareAccessor g s t
  | bracketClose opens delimiter => exact state_close g s t

/-- What one token makes of a trace. An operator or a bracket may first reduce some of what waits. -/
inductive Applied (g : Grammar) (s : Trace) (t : Token) : Trace → Prop
  | skip (kind : g.kind t.rule = .terminal) : Applied g s t s
  | operand {build : OperandBuilder} {expr : Expr} (kind : g.kind t.rule = .operand build)
      (built : build t.text s.parameters = .ok expr) :
      Applied g s t (s.pushOperand ⟨⟨expr, t.extent⟩, .token t⟩)
  | waits {folds : RuleKind → Bool} {s' : Trace} (kind : (g.kind t.rule).isInert = false)
      (folded : s.fold g folds = some s') : Applied g s t (s'.await t)
  | named {s' : Trace} (kind : g.kind t.rule = .collectionAccessor) (named : Named g s t s') :
      Applied g s t s'
  | closed {opens : List String} {delimiter : Option String} {s' : Trace}
      (kind : g.kind t.rule = .bracketClose opens delimiter) (closed : Closed g s t s') :
      Applied g s t s'

theorem fold_false (g : Grammar) (s : Trace) : s.fold g (fun _ => false) = some s := by
  rw [fold_eq_some]
  refine ⟨rfl, ?_⟩
  cases s.operators <;> rfl

theorem applied_of_apply {g : Grammar} {s s' : Trace} {t : Token} (h : s.apply g t = some s') :
    Applied g s t s' := by
  unfold apply at h
  split at h
  · rename_i hk
    cases h
    exact .skip hk
  · rename_i build hk
    obtain ⟨expr, hb, h⟩ := Option.bind_eq_some_iff.1 h
    cases h
    exact .operand hk (toOption_eq_some.1 hb)
  · rename_i positions precedence build hk
    have hw : (g.kind t.rule).isInert = false := by rw [hk]; rfl
    dsimp only at h
    split at h
    · split at h
      · obtain ⟨s₁, hf, h⟩ := Option.bind_eq_some_iff.1 h
        cases h
        exact .waits hw hf
      · cases h
        exact .waits hw (fold_false g s)
    · cases h
      exact .waits hw (fold_false g s)
  · rename_i build hk
    obtain ⟨s₁, hf, h⟩ := Option.bind_eq_some_iff.1 h
    cases h
    exact .waits (by rw [hk]; rfl) hf
  · rename_i hk
    cases h
    exact .waits (by rw [hk]; rfl) (fold_false g s)
  · rename_i hk
    cases h
    exact .waits (by rw [hk]; rfl) (fold_false g s)
  · rename_i hk
    cases h
    exact .waits (by rw [hk]; rfl) (fold_false g s)
  · rename_i hk
    exact .named hk (named_of_declareAccessor h)
  · rename_i opens delimiter hk
    exact .closed hk (close_eq_some.1 h)

/-- What is kept by every token is kept by every run. -/
theorem applyAll_induction {g : Grammar} {P : List Token → Trace → Prop}
    (step : ∀ read s t s', P read s → Applied g s t s' → P (read ++ [t]) s')
    {s s' : Trace} {ts : List Token} (read : List Token) (hs : P read s)
    (h : s.applyAll g ts = some s') : P (read ++ ts) s' := by
  induction ts generalizing read s with
  | nil =>
    cases h
    rwa [List.append_nil]
  | cons t ts ih =>
    obtain ⟨s₁, h₁, h⟩ := Option.bind_eq_some_iff.1 h
    rw [List.append_cons]
    exact ih _ (step read s t s₁ hs (applied_of_apply h₁)) h

theorem state_applyAll (g : Grammar) (s : Trace) (ts : List Token) :
    (s.applyAll g ts).map state = (s.state.applyAll g ts).toOption := by
  induction ts generalizing s with
  | nil => rfl
  | cons t ts ih =>
    rw [applyAll_cons, toOption_bind, ← state_apply]
    simp only [applyAll, Option.bind_eq_bind]
    cases s.apply g t with
    | none => rfl
    | some s => exact ih s

theorem expr_finish (g : Grammar) (s : Trace) :
    (s.finish g).map Derived.expr = (s.state.finish g).toOption := by
  simp only [finish, ParseState.finish, toOption_bind, ← state_fold, Option.bind_eq_bind]
  cases s.fold g fun _ => true with
  | none => rfl
  | some s =>
    simp only [Option.map_some, Option.bind_some, state]
    cases s.operands with
    | nil => rfl
    | cons x rest => cases rest <;> rfl

/-! ## Parses -/

/-- The derivation of the operand that remains of some tokens. -/
def parse (g : Grammar) (parameters : List Parameter) (ts : List Token) : Option Derived := do
  (← (start parameters).applyAll g ts).finish g

/-- A run of a state is the run of a trace without derivations. -/
theorem exists_of_applyAll {g : Grammar} {parameters : List Parameter} {ts : List Token}
    {s : ParseState} (h : (ParseState.start parameters).applyAll g ts = .ok s) :
    ∃ r, (start parameters).applyAll g ts = some r ∧ r.state = s :=
  Option.map_eq_some_iff.1 ((state_applyAll g (start parameters) ts).trans (toOption_eq_some.2 h))

/-- A parse of a state is the parse of a trace without derivations. -/
theorem expr_parse (g : Grammar) (parameters : List Parameter) (ts : List Token) :
    (parse g parameters ts).map Derived.expr =
      ((ParseState.start parameters).applyAll g ts >>= (·.finish g)).toOption := by
  have h := state_applyAll g (start parameters) ts
  rw [toOption_bind]
  change _ = (((start parameters).state.applyAll g ts).toOption).bind _
  rw [← h]
  simp only [parse, Option.bind_eq_bind]
  cases (start parameters).applyAll g ts with
  | none => rfl
  | some s => exact expr_finish g s

theorem parse_eq_ok {l : Language} {text : String} {parameters : List Parameter} {e : Expr} :
    l.parse text parameters = .ok e ↔
      ∃ s, (ParseState.start parameters).applyAll l.grammar (l.scanner.scan text).tokens = .ok s ∧
        Language.afterScan (l.scanner.scan text) = .ok () ∧ s.finish l.grammar = .ok e := by
  constructor
  · intro h
    obtain ⟨s, hs, h⟩ := bind_eq_ok.1 h
    obtain ⟨⟨⟩, hscan, he⟩ := bind_eq_ok.1 h
    exact ⟨s, hs, hscan, he⟩
  · rintro ⟨s, hs, hscan, he⟩
    exact bind_eq_ok.2 ⟨s, hs, bind_eq_ok.2 ⟨(), hscan, he⟩⟩

/-- The expression of a text has a derivation from the tokens of the text. -/
theorem exists_of_parse {l : Language} {text : String} {parameters : List Parameter} {e : Expr}
    (h : l.parse text parameters = .ok e) :
    ∃ x, parse l.grammar parameters (l.scanner.scan text).tokens = some x ∧ x.expr = e := by
  obtain ⟨s, hs, -, h⟩ := parse_eq_ok.1 h
  refine Option.map_eq_some_iff.1 ((expr_parse _ _ _).trans (toOption_eq_some.2 ?_))
  exact bind_eq_ok.2 ⟨s, hs, h⟩

end Trace

end Parlance
