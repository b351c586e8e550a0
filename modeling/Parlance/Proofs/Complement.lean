import Parlance.Proofs.Alignment
import Parlance.Proofs.Builders
import Parlance.Proofs.Transparency
import Parlance.Proofs.TruthValues

/-!
# Negated filters

The tokens of a filter are a filter again between brackets behind a negation (`Filter.predicate?_negated`):
the brackets hold one operand, which the negation takes although it binds more loosely than anything in
them. Its predicate is the negation of the first one, so that exactly one of the two filters selects a row on
which that one is true or false (`Filter.Complements`, `negation_complements`). A null where a flag should be
is neither of these, and then neither filter selects the row (`neither_selects`).
-/

namespace Parlance

/-! ## Tokens -/

/-- The tokens have the same rules and texts, in the same order. -/
abbrev SameLexemes (ts us : List Token) : Prop :=
  List.Forall₂ (fun t u => t.rule = u.rule ∧ t.text = u.text) ts us

theorem Ordered.shift {lo hi : Nat} {ts : List Token} (h : Ordered lo ts hi) (d : Nat) :
    Ordered (lo + d) (ts.map (·.shift d)) (hi + d) := by
  induction ts generalizing lo with
  | nil => exact Nat.add_le_add_right h d
  | cons t ts ih =>
    exact ⟨Nat.add_le_add_right h.1 d, Nat.add_lt_add_right h.2.1 d, ih h.2.2⟩

theorem sameLexemes_shift (ts : List Token) (d : Nat) : SameLexemes (ts.map (·.shift d)) ts := by
  induction ts with
  | nil => exact .nil
  | cons t ts ih => exact .cons ⟨rfl, rfl⟩ ih

theorem SameLexemes.symm {ts us : List Token} (h : SameLexemes ts us) : SameLexemes us ts :=
  h.flip.imp fun _ _ hsame => ⟨hsame.1.symm, hsame.2.symm⟩

theorem SameLexemes.trans {ts us vs : List Token} (h : SameLexemes ts us) (h' : SameLexemes us vs) :
    SameLexemes ts vs := by
  induction h generalizing vs with
  | nil => exact h'
  | cons htu hrest ih =>
    cases h' with
    | cons huv hrest' => exact .cons ⟨htu.1.trans huv.1, htu.2.trans huv.2⟩ (ih hrest')

/-! ## Operators before brackets -/

section Lead

variable {g : Grammar} {operator opening close : Token} {precedence : Option Int} {build : OperatorBuilder}
  {parameters : List Parameter} {ts inner : List Token} {lo hi lo' hi' : Nat} {e x : Expr}

/-- An operator without an operand on its left waits. -/
theorem ParseState.apply_lead (hkind : g.kind operator.rule = .operator [.right] precedence build)
    (s : ParseState) : s.apply g operator = .ok (s.await operator) := by
  unfold ParseState.apply
  rw [hkind]
  cases precedence <;> rfl

/-- At the end it takes the operand behind it. -/
theorem ParseState.finish_lead (hkind : g.kind operator.rule = .operator [.right] precedence build)
    {operand : Operand} (hbehind : operator.extent.stop ≤ operand.extent.start)
    (hbuilt : build operator.text [operand.expr] = .ok x) :
    (((start parameters).await operator).pushOperand operand).finish g = .ok x := by
  have hsplit : Split Operand.extent operator.extent [.right] (boundaryOf []) [operand] [] [operand] [] :=
    ⟨rfl, rfl, rfl, List.forall_mem_singleton.2 hbehind, nofun, nofun⟩
  have hreduce := reduce_eq_ok.2 (@Reduced.operation g ⟨operator, none⟩ [] _ _ _ _ _ _ _ _ hkind hsplit hbuilt)
  exact finish_eq_ok.2 ⟨[], _, bind_eq_ok.2 ⟨_, hreduce, rfl⟩, rfl⟩

/-- Tokens that make an expression make the operand of the operator before their brackets, wherever all of
them stand. -/
theorem ParseState.finish_lead_bracketed (hlinked : g.Linked) (hts : Ordered lo ts hi)
    (hall : Ordered lo' (operator :: opening :: inner ++ [close]) hi') (same : SameLexemes ts inner)
    (hkind : g.kind operator.rule = .operator [.right] precedence build) (hopen : g.IsOpen opening)
    (hcloses : g.Closes close opening)
    (he : ((start parameters).applyAll g ts >>= (·.finish g)) = .ok e)
    (hbuilt : build operator.text [e] = .ok x) :
    ((start parameters).applyAll g (operator :: opening :: inner ++ [close]) >>= (·.finish g)) = .ok x := by
  obtain ⟨s, hs, hfinish⟩ := bind_eq_ok.1 he
  -- The tokens behind an opening at the start, and the close bracket behind them.
  let first : Token := { operator with extent := ⟨0, 1⟩ }
  let second : Token := { opening with extent := ⟨1, 2⟩ }
  let last : Token := { close with extent := ⟨hi + 2, hi + 3⟩ }
  have hordered : Ordered 0 (first :: second :: ts.map (·.shift 2) ++ [last]) (hi + 3) := by
    have hinner : Ordered 2 (ts.map (·.shift 2)) (hi + 2) := (hts.shift 2).mono (by omega) le_rfl
    have hlast : Ordered (hi + 2) [last] (hi + 3) := ⟨le_rfl, Nat.lt_succ_self _, le_rfl⟩
    exact ⟨le_rfl, Nat.zero_lt_one, le_rfl, Nat.lt_succ_self 1,
      Ordered.append_iff.2 ⟨hi + 2, hinner, hlast⟩⟩
  have hsame : SameLexemes (first :: second :: ts.map (·.shift 2) ++ [last])
      (operator :: opening :: inner ++ [close]) := by
    have hinner := (sameLexemes_shift ts 2).trans same
    exact .cons ⟨rfl, rfl⟩ (.cons ⟨rfl, rfl⟩ (List.rel_append hinner (.cons ⟨rfl, rfl⟩ .nil)))
  have hbracketed := @applyAll_bracketed g hlinked ts lo hi 2 ((start parameters).await first) s e second last
    nofun hts hs hfinish hopen hcloses (Nat.lt_succ_self 1) (Nat.le_add_left 2 lo) le_rfl (Nat.lt_succ_self _)
  have hrun : (start parameters).applyAll g (first :: second :: ts.map (·.shift 2) ++ [last]) = .ok _ :=
    bind_eq_ok.2 ⟨_, @apply_lead g first precedence build hkind _, hbracketed⟩
  have hend := @finish_lead g first precedence build parameters x hkind
    ⟨e, ⟨second.extent.start, last.extent.stop⟩⟩ le_rfl hbuilt
  exact applyAll_finish_congr hordered hall hsame (bind_eq_ok.2 ⟨_, hrun, hend⟩)

end Lead

namespace Filter

theorem made_language : Language.make? rules = .ok language := make?_eq_ofRules rules_fit

/-- A token of a rule with a name is of the kind of the rule that has it. -/
theorem kind_of_named {t : Token} {rule : Rule} {i : Nat} (hi : rules[i]? = some rule)
    (h : language.grammar.Named t rule.name) : language.grammar.kind t.rule = rule.kind := by
  obtain ⟨hrules, hnodup, -⟩ := of_make? made_language
  obtain ⟨other, hother, hname⟩ := h
  rw [hrules] at hother
  have hfound := (findIdx?_name hnodup).2 ⟨other, hother, hname⟩
  have hfound' := (findIdx?_name hnodup).2 ⟨rule, hi, rfl⟩
  obtain rfl := Option.some.inj (hfound.symm.trans hfound')
  exact Grammar.kind_eq (hrules ▸ hi)

theorem kind_negation {t : Token} (h : language.grammar.Named t "NOT") :
    language.grammar.kind t.rule = (Rule.unary "NOT" "\\bnot\\b" 19 .right fun operand =>
      Refusal.ofExpr (Expr.unary? .not (truthful operand))).kind :=
  kind_of_named (i := 39) rfl h

theorem isOpen_opening {t : Token} (h : language.grammar.Named t "OPEN_BRACKET") :
    language.grammar.IsOpen t :=
  @kind_of_named t (.bracketOpen "OPEN_BRACKET" "\\(") 28 rfl h

theorem closes_opening {t opening : Token} (h : language.grammar.Named t "CLOSE_BRACKET")
    (hopening : language.grammar.Named opening "OPEN_BRACKET") : language.grammar.Closes t opening :=
  ⟨brackets, some "COMMA",
    @kind_of_named t (.bracketClose "CLOSE_BRACKET" "\\)" brackets (some "COMMA")) 30 rfl h,
    "OPEN_BRACKET", List.mem_cons_self, hopening⟩

theorem named_of_rule {t : Token} {rule : Rule} (h : rules[t.rule]? = some rule) :
    language.grammar.Named t rule.name :=
  ⟨rule, by rwa [(of_make? made_language).1], rfl⟩

/-- The tokens stand between brackets behind a negation, wherever all of them stand. -/
inductive Negated (ts : List Token) : List Token → Prop
  | intro {negation opening close : Token} {inner : List Token}
      (negation_named : language.grammar.Named negation "NOT")
      (opening_named : language.grammar.Named opening "OPEN_BRACKET")
      (close_named : language.grammar.Named close "CLOSE_BRACKET") (same : SameLexemes ts inner) :
      Negated ts (negation :: opening :: inner ++ [close])

/-- The predicate over a record that tokens make. -/
def predicate? (record : RecordType) (ts : List Token) : Option Expr :=
  ((ParseState.start [⟨none, record.type⟩]).applyAll language.grammar ts >>=
    (·.finish language.grammar)).toOption.bind Expr.toBoolean?

theorem predicate?_eq_some {record : RecordType} {ts : List Token} {b : Expr} :
    predicate? record ts = some b ↔ ∃ s e,
      (ParseState.start [⟨none, record.type⟩]).applyAll language.grammar ts = .ok s ∧
      s.finish language.grammar = .ok e ∧ e.toBoolean? = some b := by
  unfold predicate?
  rw [Option.bind_eq_some_iff]
  constructor
  · rintro ⟨e, he, hb⟩
    obtain ⟨s, hs, hfinish⟩ := bind_eq_ok.1 (toOption_eq_some.1 he)
    exact ⟨s, e, hs, hfinish, hb⟩
  · rintro ⟨s, e, hs, hfinish, hb⟩
    exact ⟨e, toOption_eq_some.2 (bind_eq_ok.2 ⟨s, hs, hfinish⟩), hb⟩

/-- A filter is the predicate that its tokens make, if no text is left over. -/
theorem parse_eq_ok {text : String} {record : RecordType} {f : Lambda} :
    parse text record = .ok f ↔ (language.scanner.scan text).gap? = none ∧
      ∃ b, predicate? record (language.scanner.scan text).tokens = some b ∧
        f = ⟨[⟨none, record.type⟩], b⟩ := by
  constructor
  · intro h
    obtain ⟨e, he, h⟩ := bind_eq_ok.1 h
    obtain ⟨s, hs, hscan, hfinish⟩ := Trace.parse_eq_ok.1 he
    split at h
    · rename_i b hb
      cases h
      refine ⟨?_, b, predicate?_eq_some.2 ⟨s, e, hs, hfinish, hb⟩, rfl⟩
      unfold Language.afterScan at hscan
      split at hscan
      · simp at hscan
      · assumption
    · simp at h
  · rintro ⟨hgap, b, hpredicate, rfl⟩
    obtain ⟨s, e, hs, hfinish, hb⟩ := predicate?_eq_some.1 hpredicate
    have hscan : Language.afterScan (language.scanner.scan text) = .ok () := by
      rw [Language.afterScan, hgap]
    refine bind_eq_ok.2 ⟨e, Trace.parse_eq_ok.2 ⟨s, hs, hscan, hfinish⟩, ?_⟩
    rw [hb]
    rfl

/-- The tokens of a predicate make its negation between brackets behind a negation. -/
theorem predicate?_negated {record : RecordType} {ts us : List Token} {lo hi lo' hi' : Nat} {b : Expr}
    (hts : Ordered lo ts hi) (hus : Ordered lo' us hi') (h : Negated ts us)
    (hb : predicate? record ts = some b) : predicate? record us = some (.unary .not b .bool) := by
  obtain ⟨e, he, hb⟩ := Option.bind_eq_some_iff.1 hb
  have htype := Expr.type_toBoolean? hb
  have hbuilt : Refusal.ofExpr (Expr.unary? .not (truthful e)) = .ok (.unary .not b .bool) := by
    have haccepts : Expr.unaryAccepts .not b.type = true := decide_eq_true htype
    rw [truthful, hb, Option.getD_some, Expr.unary?, if_pos haccepts, htype]
    rfl
  cases h with
  | @intro negation opening close inner negation_named opening_named close_named same =>
    have hparse := ParseState.finish_lead_bracketed (linked_of_make? made_language) hts hus same
      (kind_negation negation_named) (isOpen_opening opening_named) (closes_opening close_named opening_named)
      (toOption_eq_some.1 he) hbuilt
    exact Option.bind_eq_some_iff.2 ⟨_, toOption_eq_some.2 hparse, rfl⟩

/-! ## Rows -/

theorem invoke_not {parameters : List Parameter} {b : Expr} {t : ValueType} (args : List Value) :
    (⟨parameters, .unary .not b t⟩ : Lambda).invoke args =
      (⟨parameters, b⟩ : Lambda).invoke args >>= Value.unary .not := by
  unfold Lambda.invoke
  split
  · rfl
  · dsimp only
    unfold Expr.value
    rw [Expr.evaluate, Eval.run_bind]
    rcases b.evaluate.run args with ⟨e | v, after⟩ <;> rfl

theorem selects_of_bool {f : Lambda} {row : Record} {v : Bool}
    (h : f.invoke [row.toValue] = .ok (.bool v)) : selects f row = .ok v := by
  unfold selects
  rw [h]
  cases v <;> rfl

theorem selects_of_null {f : Lambda} {row : Record} (h : f.invoke [row.toValue] = .ok .null) :
    selects f row = .ok false := by
  unfold selects
  rw [h]
  rfl

/-- A filter and another one, of which exactly one selects a row on which the first one is true or false; it
is one of these on every row of the record type, unless it fails. Neither selects a row on which it is null,
and where it fails so does the other one, in the same way. -/
structure Complements (record : RecordType) (f g : Lambda) (row : Record) : Prop where
  settled : ∀ v : Bool, f.invoke [row.toValue] = .ok (.bool v) →
    g.invoke [row.toValue] = .ok (.bool !v) ∧ selects f row = .ok v ∧ selects g row = .ok !v
  null : f.invoke [row.toValue] = .ok .null →
    g.invoke [row.toValue] = .ok .null ∧ selects f row = .ok false ∧ selects g row = .ok false
  failed : ∀ e, f.invoke [row.toValue] = .error e → g.invoke [row.toValue] = .error e
  typed : record.type.WellFormed → row.toValue.Inhabits record.type →
    ∀ w, f.invoke [row.toValue] = .ok w → ∃ v : Bool, w = .bool v

/-- The negation of a predicate. -/
def negation (f : Lambda) : Lambda := ⟨f.parameters, .unary .not f.body .bool⟩

theorem complements_negation {text : String} {record : RecordType} {f : Lambda}
    (h : parse text record = .ok f) (row : Record) : Complements record f (negation f) row where
  settled v hv := by
    have hnegated : (negation f).invoke [row.toValue] = .ok (.bool !v) := by
      rw [negation, invoke_not, hv]
      rfl
    exact ⟨hnegated, selects_of_bool hv, selects_of_bool hnegated⟩
  null hv := by
    have hnegated : (negation f).invoke [row.toValue] = .ok .null := by
      rw [negation, invoke_not, hv]
      rfl
    exact ⟨hnegated, selects_of_null hv, selects_of_null hnegated⟩
  failed e he := by
    rw [negation, invoke_not, he]
    rfl
  typed hrecord hrow w hw := by
    obtain ⟨hparameters, hbody, hreturns⟩ := typed_of_parse (fun _ => hrecord) h
    have hargs : List.Forall₂ Value.Inhabits [row.toValue] (f.parameters.map Parameter.type) := by
      rw [hparameters]
      exact .cons hrow .nil
    have hinhabits : Outcome (·.Inhabits f.returns) (f.invoke [row.toValue]) :=
      Lambda.outcome_invoke (by rwa [hparameters]) hargs
    rw [hw, hreturns] at hinhabits
    exact (Value.Inhabits.bool hinhabits rfl).resolve_left (by rintro rfl; cases hinhabits)

end Filter

/-- The tokens of a filter, between brackets behind a negation, are a filter too, whose predicate is the
negation of that one, and so is every text of these tokens. Exactly one of the two selects a row on which the
first one is true or false, neither does if it is null, and they fail alike. -/
theorem negation_complements {text : String} {record : RecordType} {f : Lambda}
    (h : Filter.parse text record = .ok f) :
    (∀ us lo hi, Ordered lo us hi → Filter.Negated (Filter.language.scanner.scan text).tokens us →
      Filter.predicate? record us = some (Filter.negation f).body) ∧
    (∀ other, (Filter.language.scanner.scan other).gap? = none →
      Filter.Negated (Filter.language.scanner.scan text).tokens (Filter.language.scanner.scan other).tokens →
      Filter.parse other record = .ok (Filter.negation f)) ∧
    ∀ row, Filter.Complements record f (Filter.negation f) row := by
  obtain ⟨-, b, hb, rfl⟩ := Filter.parse_eq_ok.1 h
  have hordered := Filter.language.scanner.ordered_scan text
  refine ⟨fun us lo hi hus hnegated => Filter.predicate?_negated hordered hus hnegated hb,
    fun other hgap hnegated => ?_, Filter.complements_negation h⟩
  have hother := Filter.language.scanner.ordered_scan other
  exact Filter.parse_eq_ok.2 ⟨hgap, _, Filter.predicate?_negated hordered hother hnegated hb, rfl⟩

/-- The type of matches with a score that may lack. -/
def matchType : RecordType := ⟨"Match", [("Score", .nullable (.number .int))]⟩

/-- A match without a score. -/
def unscored : Record := ⟨matchType, [.null]⟩

/-- The type of rows with a flag, which may not lack. -/
def flaggedType : RecordType := ⟨"Flagged", [("Flag", .bool)]⟩

/-- A row whose flag lacks all the same. -/
def unflagged : Record := .ofPairs flaggedType []

/-- The tokens of a comparison, and of the same behind a negation. -/
def scoreTokens : List Token := [⟨46, "Score", ⟨0, 5⟩⟩, ⟨33, "gt", ⟨6, 8⟩⟩, ⟨12, "3", ⟨9, 10⟩⟩]

@[inherit_doc scoreTokens] def scoreNegated : List Token :=
  ⟨39, "not", ⟨0, 3⟩⟩ :: ⟨28, "(", ⟨4, 5⟩⟩ :: scoreTokens.map (·.shift 5) ++ [⟨30, ")", ⟨15, 16⟩⟩]

set_option maxRecDepth 100000 in
/-- Both filters are read, and their negations. All of it is one evaluation, since the language is read anew
in each. -/
theorem filters_read :
    (Filter.language.scanner.scan "Score gt 3" == ⟨scoreTokens, none⟩ &&
      Filter.language.scanner.scan "not (Score gt 3)" == ⟨scoreNegated, none⟩ &&
      ((Filter.parse "Score gt 3" matchType).toOption.any fun f =>
        (f.invoke [unscored.toValue]).toOption.any (· matches .bool false)) &&
      ((Filter.parse "Flag" flaggedType).toOption.any fun f =>
        (Filter.parse "not (Flag)" flaggedType).toOption.any fun g =>
          (f.invoke [unflagged.toValue]).toOption.any Value.isNull &&
            (g.invoke [unflagged.toValue]).toOption.any Value.isNull)) = true := by
  decide +kernel

/-- A match without a score does not score more than three, so that it is one of those that do not. -/
theorem negation_complements_unscored :
    ∃ f, Filter.parse "Score gt 3" matchType = .ok f ∧
      Filter.parse "not (Score gt 3)" matchType = .ok (Filter.negation f) ∧
      Filter.selects f unscored = .ok false ∧ Filter.selects (Filter.negation f) unscored = .ok true := by
  obtain ⟨hread, -⟩ := Bool.and_eq_true_iff.1 filters_read
  obtain ⟨hscans, hf⟩ := Bool.and_eq_true_iff.1 hread
  obtain ⟨hscan, hother⟩ := Bool.and_eq_true_iff.1 hscans
  obtain ⟨f, hf, hrun⟩ := (Option.any_eq_true _ _).1 hf
  obtain ⟨v, hv, hfalse⟩ := (Option.any_eq_true _ _).1 hrun
  obtain rfl : v = .bool false := by
    split at hfalse
    · rfl
    · cases hfalse
  obtain ⟨-, htexts, hrows⟩ := negation_complements (toOption_eq_some.1 hf)
  have hsettled := (hrows unscored).settled false (toOption_eq_some.1 hv)
  have hnegated : Filter.Negated scoreTokens scoreNegated :=
    .intro (Filter.named_of_rule (t := ⟨39, "not", ⟨0, 3⟩⟩) rfl)
      (Filter.named_of_rule (t := ⟨28, "(", ⟨4, 5⟩⟩) rfl)
      (Filter.named_of_rule (t := ⟨30, ")", ⟨15, 16⟩⟩) rfl)
      (sameLexemes_shift scoreTokens 5).symm
  rw [beq_iff_eq.1 hscan] at htexts
  refine ⟨f, toOption_eq_some.1 hf, htexts "not (Score gt 3)" ?_ ?_, hsettled.2⟩
  · rw [beq_iff_eq.1 hother]
  · rw [beq_iff_eq.1 hother]
    exact hnegated

/-- A null where a flag should be is neither true nor false, nor does it fail, and neither the filter nor its
negation selects the row. -/
theorem neither_selects :
    ∃ f g, Filter.parse "Flag" flaggedType = .ok f ∧ Filter.parse "not (Flag)" flaggedType = .ok g ∧
      f.invoke [unflagged.toValue] = .ok .null ∧ g.invoke [unflagged.toValue] = .ok .null ∧
      Filter.selects f unflagged = .ok false ∧ Filter.selects g unflagged = .ok false := by
  obtain ⟨-, hf⟩ := Bool.and_eq_true_iff.1 filters_read
  obtain ⟨f, hf, hg⟩ := (Option.any_eq_true _ _).1 hf
  obtain ⟨g, hg, hruns⟩ := (Option.any_eq_true _ _).1 hg
  obtain ⟨hfrun, hgrun⟩ := Bool.and_eq_true_iff.1 hruns
  have hnull {f : Lambda} (h : (f.invoke [unflagged.toValue]).toOption.any Value.isNull = true) :
      f.invoke [unflagged.toValue] = .ok .null := by
    obtain ⟨v, hv, hisNull⟩ := (Option.any_eq_true _ _).1 h
    obtain rfl : v = .null := by
      unfold Value.isNull at hisNull
      split at hisNull
      · rfl
      · cases hisNull
    exact toOption_eq_some.1 hv
  exact ⟨f, g, toOption_eq_some.1 hf, toOption_eq_some.1 hg, hnull hfrun, hnull hgrun,
    Filter.selects_of_null (hnull hfrun), Filter.selects_of_null (hnull hgrun)⟩

end Parlance
