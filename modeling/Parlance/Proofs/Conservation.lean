import Mathlib.Data.List.Forall2
import Parlance.Language.Arithmetic
import Parlance.Proofs.Syntax

/-!
# Operands are conserved

Whatever a parse does with its stack, the tokens of operands that have been read are those that the
operands on the stack were built from, in the order of the text. `Conserves` says so of a stack; every
step keeps it. Since `Denotes` ties the expression of an operand to its derivation, no token is dropped,
doubled or moved on its way into the expression of a text.
-/

namespace Parlance

namespace Derivation

mutual

/-- The tokens of the operands that an operand was built from: those to the left of an operator before
those to its right, those of a collection before those of its predicate. -/
def operandTokens : Derivation → List Token
  | token t => [t]
  | operation _ left right => operandTokensOf left ++ operandTokensOf right
  | bracket _ inner _ => inner.operandTokens
  | call _ args _ _ => operandTokensOf args
  | collection source _ _ none _ => source.operandTokens
  | collection source _ _ (some body) _ => source.operandTokens ++ body.operandTokens

/-- The tokens of the operands that some operands were built from, one operand after the other. -/
def operandTokensOf : List Derivation → List Token
  | [] => []
  | d :: ds => d.operandTokens ++ operandTokensOf ds

end

theorem operandTokensOf_eq_flatMap (ds : List Derivation) :
    operandTokensOf ds = ds.flatMap operandTokens := by
  induction ds with
  | nil => rfl
  | cons d ds ih => rw [operandTokensOf, ih, List.flatMap_cons]

theorem operandTokens_collection (source : Derivation) (opening : Token) (accessor : Option Token)
    (body : Option Derivation) (close : Token) :
    (collection source opening accessor body close).operandTokens =
      source.operandTokens ++ body.toList.flatMap operandTokens := by
  cases body <;> simp [operandTokens]

end Derivation

/-- What an operand is built to by its derivation: its builder has refused neither its text nor the
expressions of its operands. At every position of an operator stands the operand of that side whose turn
it is, and a function has all its arguments. -/
inductive Denotes (g : Grammar) : Derivation → Expr → Prop
  | token {t : Token} {build : OperandBuilder} {scope : List Parameter} {expr : Expr}
      (kind : g.kind t.rule = .operand build) (built : build t.text scope = .ok expr) :
      Denotes g (.token t) expr
  | operation {op : Token} {left right : List Derivation} {positions : List Side}
      {precedence : Option Int} {build : OperatorBuilder} {args : List Expr} {expr : Expr}
      (kind : g.kind op.rule = .operator positions precedence build)
      (length : args.length = positions.length)
      (atLeft : List.Forall₂ (Denotes g) left (atSide .left positions args))
      (atRight : List.Forall₂ (Denotes g) right (atSide .right positions args))
      (built : build op.text args = .ok expr) :
      Denotes g (.operation op left right) expr
  | bracket {opening close : Token} {inner : Derivation} {expr : Expr}
      (contents : Denotes g inner expr) : Denotes g (.bracket opening inner close) expr
  | call {opening close : Token} {delimiters : List Token} {args : List Derivation}
      {overloads : List Overload} {o : Overload} {exprs passed : List Expr} {expr : Expr}
      (kind : g.kind opening.rule = .functionCall overloads) (mem : o ∈ overloads)
      (contents : List.Forall₂ (Denotes g) args exprs) (passes : o.Passes exprs passed)
      (built : o.build passed = .ok expr) :
      Denotes g (.call opening args delimiters close) expr
  | collection {opening close : Token} {accessor : Option Token} {source : Derivation}
      {body : Option Derivation} {build : CollectionBuilder} {items : Expr}
      {parameter : Option (Nat × Parameter)} {predicate : Option Expr} {expr : Expr}
      (kind : g.kind opening.rule = .collectionBracket build) (before : Denotes g source items)
      (contents : Option.Rel (Denotes g) body predicate)
      (built : build opening.text items ⟨parameter, predicate⟩ = .ok expr) :
      Denotes g (.collection source opening accessor body close) expr

namespace Trace

/-! ## Stacks -/

/-- The operands of a stack denote their expressions, and from bottom to top they were built from the
operands among the tokens read. -/
structure Conserves (g : Grammar) (read : List Token) (operands : List Derived) : Prop where
  denotes : ∀ x ∈ operands, Denotes g x.derivation x.expr
  tokens_eq : operands.reverse.flatMap (·.derivation.operandTokens) = read

namespace Conserves

variable {g : Grammar} {read : List Token} {operands rest : List Derived}

/-- Operands that are together on a stack may be replaced by one that was built from all of them. -/
theorem replace (above items : List Derived) {x : Derived}
    (h : Conserves g read (above ++ (items.reverse ++ rest))) (hx : Denotes g x.derivation x.expr)
    (htokens : x.derivation.operandTokens = items.flatMap (·.derivation.operandTokens)) :
    Conserves g read (above ++ x :: rest) := by
  constructor
  · intro y hy
    rcases List.mem_append.1 hy with hy | hy
    · exact h.denotes y (List.mem_append_left _ hy)
    rcases List.mem_cons.1 hy with rfl | hy
    · exact hx
    · exact h.denotes y (List.mem_append_right _ (List.mem_append_right _ hy))
  · rw [← h.tokens_eq]
    simp [htokens]

theorem forall₂ {items : List Derived} (h : ∀ x ∈ items, Denotes g x.derivation x.expr) :
    List.Forall₂ (Denotes g) (items.map Derived.derivation) (items.map Derived.expr) := by
  rw [List.forall₂_map_left_iff, List.forall₂_map_right_iff]
  exact List.forall₂_same.2 h

/-- A reduction conserves the operands, whatever lies above those that it sees. -/
theorem reduced (above : List Derived) {results : List Derived} {top : Pending} {below : List Pending}
    (h : Conserves g read (above ++ operands)) (hr : Reduced g top below operands results) :
    Conserves g read (above ++ results) := by
  cases hr with
  | inert => exact h
  | @operation positions precedence build left right rest expr hk hs hb =>
    have hstack : operands = (left ++ right).reverse ++ rest := by
      rw [hs.stack_eq, List.reverse_append, List.append_assoc]
    rw [hstack] at h
    have hmem : ∀ x ∈ left ++ right, Denotes g x.derivation x.expr := fun x hx =>
      h.denotes x (List.mem_append_right _ (List.mem_append_left _ (List.mem_reverse.2 hx)))
    have hleft : (left.map Derived.operand).length = positions.count .left := by
      simpa using hs.length_left
    have hright : (right.map Derived.operand).length = positions.count .right := by
      simpa using hs.length_right
    obtain ⟨hlen, hleft, hright⟩ := arrange_spec hleft hright
    refine h.replace above _ (.operation hk (by simpa using hlen) ?_ ?_ hb) ?_
    · rw [atSide_map, hleft, List.map_map]
      exact forall₂ fun x hx => hmem x (List.mem_append_left _ hx)
    · rw [atSide_map, hright, List.map_map]
      exact forall₂ fun x hx => hmem x (List.mem_append_right _ hx)
    · simp [Derivation.operandTokens, Derivation.operandTokensOf_eq_flatMap, List.flatMap_map]

theorem foldWhile {folds : RuleKind → Bool} {operators operators' : List Pending}
    {results : List Derived} (h : Conserves g read operands)
    (hf : foldWhile g folds operators operands = some (operators', results)) :
    Conserves g read results := by
  induction operators generalizing operands with
  | nil =>
    cases hf
    exact h
  | cons top below ih =>
    simp only [Trace.foldWhile] at hf
    split at hf
    · obtain ⟨next, hr, hf⟩ := Option.bind_eq_some_iff.1 hf
      exact ih (h.reduced [] (reduce_eq_some.1 hr)) hf
    · cases hf
      exact h

theorem fold {folds : RuleKind → Bool} {s s' : Trace} (h : Conserves g read s.operands)
    (hf : s.fold g folds = some s') : Conserves g read s'.operands :=
  h.foldWhile (fold_eq_some.1 hf).2

theorem unwind (contents : List Derived) {links : BracketLinks} {previous : Extent}
    {delimiters : List Token} {operators : List Pending} {u : Unwound}
    (h : Conserves g read (contents.reverse ++ operands))
    (hu : unwind g links previous contents delimiters operators operands = some u) :
    Conserves g read (u.contents.reverse ++ u.operands) := by
  induction operators generalizing previous contents delimiters operands with
  | nil => cases hu
  | cons top below ih =>
    have htake : ∀ x rest, takeBetween? top.extent previous operands = some (x, rest) →
        Conserves g read ((x :: contents).reverse ++ rest) := by
      intro x rest hx
      rw [takeBetween?_eq_some.1 hx |>.1] at h
      simpa using h
    simp only [Trace.unwind] at hu
    split at hu
    · split at hu
      · cases hu
        exact htake _ _ ‹_›
      · split at hu
        · cases hu
          exact h
        · cases hu
    split at hu
    · split at hu
      · exact ih _ (htake _ _ ‹_›) hu
      · cases hu
    · obtain ⟨results, hr, hu⟩ := Option.bind_eq_some_iff.1 hu
      exact ih _ (h.reduced contents.reverse (reduce_eq_some.1 hr)) hu

theorem close {s s' : Trace} {t : Token} (h : Conserves g read s.operands)
    (hc : Closed g s t s') : Conserves g read s'.operands := by
  cases hc with
  | @call u overloads result hu hk hf =>
    have h := Conserves.unwind [] h hu
    have hmem : ∀ x ∈ u.contents, Denotes g x.derivation x.expr := fun x hx =>
      h.denotes x (List.mem_append_left _ (List.mem_reverse.2 hx))
    cases called_of_callFunction hf with
    | intro hmem' hp hb =>
      refine h.replace [] _ (.call hk hmem' ?_ hp hb) ?_
      · rw [List.map_map]
        exact forall₂ hmem
      · simp [Derivation.operandTokens, Derivation.operandTokensOf_eq_flatMap, List.flatMap_map]
  | @collection u build source rest element expr hu hk h1 ho hb he hbuild =>
    have h := Conserves.unwind [] h hu
    rw [ho] at h
    have hsource := h.denotes source (by simp)
    have hstack : u.contents.reverse ++ source :: rest =
        (source :: u.contents).reverse ++ rest := by simp
    rw [hstack] at h
    refine h.replace [] _ (.collection hk hsource ?_ hbuild) ?_
    · match hcon : u.contents with
      | [] => exact .none
      | x :: _ => exact .some (h.denotes x (by simp [hcon]))
    · rw [Derivation.operandTokens_collection]
      match hcon : u.contents with
      | [] => simp
      | [x] => simp
      | _ :: _ :: _ => simp [hcon] at h1
  | @bracket u inner hu hk h1 =>
    have h := Conserves.unwind [] h hu
    rw [h1] at h
    exact h.replace [] [inner] (.bracket (h.denotes inner (by simp)))
      (by simp [Derivation.operandTokens])

theorem apply {s s' : Trace} {t : Token} (h : Conserves g read s.operands)
    (ha : Applied g s t s') : Conserves g (read ++ [t].filter g.isOperand) s'.operands := by
  have skips (hk : g.isOperand t = false) : read ++ [t].filter g.isOperand = read := by simp [hk]
  cases ha with
  | skip hk =>
    rw [skips (by simp [Grammar.isOperand, hk])]
    exact h
  | operand hk hb =>
    constructor
    · intro x hx
      rcases List.mem_cons.1 hx with rfl | hx
      · exact .token hk hb
      · exact h.denotes x hx
    · have : g.isOperand t = true := by simp [Grammar.isOperand, hk]
      simp [pushOperand, h.tokens_eq, Derivation.operandTokens, this]
  | waits hk hf =>
    rw [skips (by cases hk' : g.kind t.rule <;> simp_all [Grammar.isOperand, RuleKind.isInert])]
    have h' := h.fold hf
    exact h'
  | named hk hn =>
    rw [skips (by simp [Grammar.isOperand, hk])]
    cases hn
    exact h
  | closed hk hc =>
    rw [skips (by simp [Grammar.isOperand, hk])]
    exact h.close hc

/-- Along every run the operands on the stack are those that were read. -/
theorem applyAll {parameters : List Parameter} {ts : List Token} {s : Trace}
    (h : (start parameters).applyAll g ts = some s) :
    Conserves g (ts.filter g.isOperand) s.operands := by
  have step (read : List Token) (s : Trace) (t : Token) (s' : Trace)
      (hs : Conserves g (read.filter g.isOperand) s.operands) (ha : Applied g s t s') :
      Conserves g ((read ++ [t]).filter g.isOperand) s'.operands := by
    rw [List.filter_append]
    exact hs.apply ha
  exact applyAll_induction step [] ⟨by simp [start], rfl⟩ h

end Conserves

theorem conserves_finish {g : Grammar} {read : List Token} {s : Trace} {x : Derived}
    (h : Conserves g read s.operands) (hf : s.finish g = some x) : Conserves g read [x] := by
  obtain ⟨s', hs, hf⟩ := Option.bind_eq_some_iff.1 hf
  rw [← sole?_eq_some hf]
  exact h.fold hs

end Trace

/-- In every state of a parse the operands on the stack were built from the operands of the text read so
far, each once and in the order of the text; and the expression of a text is built from all operands of
the text in this way. -/
theorem operands_conserved (l : Language) (parameters : List Parameter) :
    (∀ (ts : List Token) (s : ParseState),
      (ParseState.start parameters).applyAll l.grammar ts = .ok s →
        ∃ r, (Trace.start parameters).applyAll l.grammar ts = some r ∧ r.state = s ∧
          (∀ x ∈ r.operands, Denotes l.grammar x.derivation x.expr) ∧
          r.operands.reverse.flatMap (·.derivation.operandTokens) =
            ts.filter l.grammar.isOperand) ∧
      ∀ (text : String) (e : Expr), l.parse text parameters = .ok e →
        ∃ x, Trace.parse l.grammar parameters (l.scanner.scan text).tokens = some x ∧ x.expr = e ∧
          Denotes l.grammar x.derivation e ∧
          x.derivation.operandTokens =
            (l.scanner.scan text).tokens.filter l.grammar.isOperand := by
  constructor
  · intro ts s h
    obtain ⟨r, hr, hs⟩ := Trace.exists_of_applyAll h
    have hc := Trace.Conserves.applyAll hr
    exact ⟨r, hr, hs, hc.denotes, hc.tokens_eq⟩
  · intro text e h
    obtain ⟨x, hx, rfl⟩ := Trace.exists_of_parse h
    obtain ⟨r, hr, hf⟩ := Option.bind_eq_some_iff.1 hx
    have hc := Trace.conserves_finish (Trace.Conserves.applyAll hr) hf
    refine ⟨x, hx, rfl, hc.denotes x (by simp), ?_⟩
    simpa using hc.tokens_eq

set_option maxRecDepth 100000 in
/-- The factors of a sum are built into it in their order. -/
theorem operands_conserved_sum :
    ∃ (e : Expr) (x : Derived), Arithmetic.language.parse "1+2*3" [] = .ok e ∧ x.expr = e ∧
      Denotes Arithmetic.language.grammar x.derivation e ∧
      x.derivation.operandTokens.map Token.text = ["1", "2", "3"] := by
  -- one evaluation, since the language is read anew in each
  have hread : (Arithmetic.language.parse "1+2*3" []).toOption.isSome = true ∧
      (((Arithmetic.language.scanner.scan "1+2*3").tokens.filter
        Arithmetic.language.grammar.isOperand).map Token.text) = ["1", "2", "3"] := by decide +kernel
  obtain ⟨e, he⟩ := Option.isSome_iff_exists.1 hread.1
  obtain ⟨x, -, hx, hd, htokens⟩ :=
    (operands_conserved Arithmetic.language []).2 _ _ (toOption_eq_some.1 he)
  refine ⟨e, x, toOption_eq_some.1 he, hx, hd, ?_⟩
  rw [htokens]
  exact hread.2

end Parlance
