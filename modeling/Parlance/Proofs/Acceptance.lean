import Parlance.Language.Arithmetic
import Parlance.Proofs.Reading

/-!
# What is accepted, and how it is read

Over plain rules whose builders never refuse and whose operators have precedences a language accepts
exactly the expressions of its grammar. What it accepts, over any plain rules, it reads by precedences.
-/

namespace Parlance

open Trace

/-- The tokens that a language accepts are the expressions of its grammar. -/
theorem accepts_iff_derives {rules : List Rule} {l : Language}
    (made : Language.make? rules = .ok l) (parameters : List Parameter) {ts : List Token} {stop : Nat}
    (ordered : Ordered 0 ts stop) (total : ∀ t ∈ ts, (l.grammar.kind t.rule).Total) :
    (∃ e, ((ParseState.start parameters).applyAll l.grammar ts >>= (·.finish l.grammar)) = .ok e) ↔
      l.grammar.Derives .expression ts := by
  have hlinked := linked_of_make? made
  have hexpr := expr_parse l.grammar parameters ts
  rw [Derivation.derives_iff_formed]
  constructor
  · rintro ⟨e, he⟩
    rw [he] at hexpr
    obtain ⟨x, hx, -⟩ := Option.map_eq_some_iff.1 hexpr
    exact ⟨x.derivation, formed_of_parse hlinked ordered (fun t ht => (total t ht).plain) hx⟩
  · rintro ⟨d, hd, rfl⟩
    obtain ⟨x, hx⟩ := Option.isSome_iff_exists.1
      ((parse_of_formed parameters True hlinked hd ordered fun _ => total).1 trivial)
    rw [hx] at hexpr
    exact ⟨x.expr, toOption_eq_some.1 hexpr.symm⟩

/-- Rules for numbers with an operator of every fixity, brackets and a function. -/
def sumRules : List Rule :=
  [.operand "NUMBER" "[0-9]+" fun _ => .ok .null,
    .operator "ADD" "\\+" (some 2) [.left, .right] fun _ => .ok .null,
    .operator "NEGATE" "-" (some 3) [.right] fun _ => .ok .null,
    .operator "FACTORIAL" "!" (some 1) [.left] fun _ => .ok .null,
    .functionCall "MAX" "max\\(" [⟨none, fun _ => .ok .null⟩],
    .bracketOpen "OPEN" "\\(", .listDelimiter "COMMA" ",",
    .bracketClose "CLOSE" "\\)" ["OPEN", "MAX"] (some "COMMA")]

set_option maxRecDepth 100000 in
theorem sumRules_fit : (Language.make? sumRules).toOption.isSome = true := by decide +kernel

theorem sumRules_total : ∀ r ∈ sumRules, r.kind.Total := by
  simp [sumRules, RuleKind.Total, Rule.operand, Rule.operandIn, Rule.operator, Rule.operatorOf,
    Rule.functionCall, Rule.bracketOpen, Rule.listDelimiter, Rule.bracketClose, fixities]

set_option maxRecDepth 100000 in
/-- A sum with calls is an expression; two numbers side by side are not. -/
theorem accepts_iff_derives_sum :
    (Language.ofRules sumRules sumRules_fit).grammar.Derives .expression
        ((Language.ofRules sumRules sumRules_fit).scanner.scan "-max(1,2+3)!+(4)").tokens ∧
      ¬ (Language.ofRules sumRules sumRules_fit).grammar.Derives .expression
        ((Language.ofRules sumRules sumRules_fit).scanner.scan "(1-2)").tokens := by
  have made := make?_eq_ofRules sumRules_fit
  have known (ts : List Token) (h : ∀ t ∈ ts, t.rule < sumRules.length) :
      ∀ t ∈ ts, ((Language.ofRules sumRules sumRules_fit).grammar.kind t.rule).Total := by
    intro t ht
    obtain ⟨r, hr, hk⟩ := kind_of_make? made (h t ht)
    exact hk ▸ sumRules_total r hr
  constructor
  · have haccept : (((ParseState.start []).applyAll (Language.ofRules sumRules sumRules_fit).grammar
        ((Language.ofRules sumRules sumRules_fit).scanner.scan "-max(1,2+3)!+(4)").tokens >>=
          (·.finish (Language.ofRules sumRules sumRules_fit).grammar)).toOption).isSome = true := by
      decide +kernel
    obtain ⟨e, he⟩ := Option.isSome_iff_exists.1 haccept
    exact (accepts_iff_derives made [] (show Ordered 0 _ 16 by decide +kernel)
      (known _ (by decide +kernel))).1 ⟨e, toOption_eq_some.1 he⟩
  · intro hderives
    have hreject : (((ParseState.start []).applyAll (Language.ofRules sumRules sumRules_fit).grammar
        ((Language.ofRules sumRules sumRules_fit).scanner.scan "(1-2)").tokens >>=
          (·.finish (Language.ofRules sumRules sumRules_fit).grammar)).toOption).isSome = false := by
      decide +kernel
    obtain ⟨e, he⟩ := (accepts_iff_derives made [] (show Ordered 0 _ 5 by decide +kernel)
      (known _ (by decide +kernel))).2 hderives
    rw [toOption_eq_some.2 he] at hreject
    cases hreject

/-- What is accepted is read by precedences: of two operators that compete for what stands between them,
the former keeps it exactly if both have a precedence and it binds at least as tightly, and else the
latter takes it. If all operators have a precedence, no other derivation of the tokens is so. -/
theorem precedence_decides {rules : List Rule} {l : Language} (made : Language.make? rules = .ok l)
    (parameters : List Parameter) {ts : List Token} {stop : Nat} (ordered : Ordered 0 ts stop)
    (plain : ∀ t ∈ ts, (l.grammar.kind t.rule).Plain) {e : Expr}
    (accepted : ((ParseState.start parameters).applyAll l.grammar ts >>= (·.finish l.grammar)) =
      .ok e) :
    ∃ x, Trace.parse l.grammar parameters ts = some x ∧ x.expr = e ∧
      x.derivation.Formed l.grammar ∧ x.derivation.tokens = ts ∧
      (∀ q o, x.derivation.Keeps q o → l.grammar.Binds q o) ∧
      (∀ q o, x.derivation.Takes q o → ¬ l.grammar.Binds q o) ∧
      (∀ level, level.Part x.derivation → ∀ q y o, Derivation.Stands (some q) y (some o) level →
        (x.derivation.Keeps q o ↔ l.grammar.Binds q o) ∧
          (x.derivation.Takes q o ↔ ¬ l.grammar.Binds q o)) ∧
      ((∀ t ∈ ts, ∀ positions, l.grammar.IsOperator positions t →
          (l.grammar.kind t.rule).precedence?.isSome = true) →
        ∀ d, d.Formed l.grammar → d.tokens = ts → d.Obeys l.grammar → d = x.derivation) := by
  have hlinked := linked_of_make? made
  have hexpr := expr_parse l.grammar parameters ts
  rw [accepted] at hexpr
  obtain ⟨x, hx, hxe⟩ := Option.map_eq_some_iff.1 hexpr
  obtain ⟨hformed, htokens⟩ := formed_of_parse hlinked ordered plain hx
  have hparse {d : Derivation} (hd : d.Formed l.grammar) (hts : d.tokens = ts) :
      x.derivation.Obeys l.grammar ∧ (Ruled l.grammar d → x.derivation = d) := by
    subst hts
    exact (parse_of_formed parameters False hlinked hd ordered fun h => h.elim).2 x hx
  have hobeys := (hparse hformed htokens).1
  refine ⟨x, hx, hxe, hformed, htokens, fun q o => hobeys.keeps, fun q o => hobeys.takes,
    fun level hlevel q y o => hobeys.decides hlevel, fun hranked d hd hts hruled => ?_⟩
  refine ((hparse hd hts).2 ⟨hruled, fun t ht positions hop => ?_⟩).symm
  exact hranked t (hts ▸ ht) positions hop

set_option maxRecDepth 100000 in
/-- A sign that binds less tightly than a sum takes the sum. -/
theorem precedence_decides_sum :
    ∃ x, Trace.parse (Language.ofRules sumRules sumRules_fit).grammar []
        ((Language.ofRules sumRules sumRules_fit).scanner.scan "-1+2!+3").tokens = some x ∧
      x.derivation.tokens =
        ((Language.ofRules sumRules sumRules_fit).scanner.scan "-1+2!+3").tokens ∧
      x.derivation.Obeys (Language.ofRules sumRules sumRules_fit).grammar := by
  have haccept : (((ParseState.start []).applyAll (Language.ofRules sumRules sumRules_fit).grammar
      ((Language.ofRules sumRules sumRules_fit).scanner.scan "-1+2!+3").tokens >>=
        (·.finish (Language.ofRules sumRules sumRules_fit).grammar)).toOption).isSome = true := by
    decide +kernel
  obtain ⟨e, he⟩ := Option.isSome_iff_exists.1 haccept
  obtain ⟨x, hx, -, -, htokens, hkeeps, htakes, -⟩ :=
    precedence_decides (make?_eq_ofRules sumRules_fit) [] (show Ordered 0 _ 7 by decide +kernel)
      (by decide +kernel) (toOption_eq_some.1 he)
  exact ⟨x, hx, htokens, hkeeps _ _, htakes _ _⟩

end Parlance
