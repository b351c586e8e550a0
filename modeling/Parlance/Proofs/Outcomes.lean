import Parlance.Proofs.Builders
import Parlance.Proofs.Panics

/-!
# What accepted texts come to

The functions of formulas take all arguments without a panic (`Arithmetic.quiet_functions`); those of filters
do so if the clocks of all moments in the arguments show moments (`Filter.quiet_functions`), and a moment that
is written in a filter is such a moment. So a formula or a filter that is accepted has a value of its type
for every record of its schema, or fails in a way that typing does not rule out; and there is no panic, save
where a filter reads a record with a moment that is not local (`outcome_of_accepted`). There a panic does
occur (`panic_of_lastInstant`).
-/

namespace Parlance

/-! ## Functions -/

/-- Whether a host function panics. -/
def HostFailure.isPanic (failure : HostFailure) : Bool := failure matches .panic _

/-- The answer satisfies a predicate, or the function fails without a panic. -/
def Quiet {α : Type} (P : α → Prop) : Except HostFailure α → Prop
  | .ok a => P a
  | .error failure => failure.isPanic = false

theorem Quiet.bind {α β : Type} {P : α → Prop} {P' : β → Prop} {x : Except HostFailure α}
    {f : α → Except HostFailure β} (hx : Quiet P x) (hf : ∀ a, P a → Quiet P' (f a)) : Quiet P' (x >>= f) := by
  cases x with
  | ok a => exact hf a hx
  | error failure => exact hx

/-- A function that answers with plain values upholds any property that is inherited. -/
theorem Function.upholds_of_quiet {Q : Value → Prop} (hQ : Value.Inherited Q) {f : Function}
    (h : ∀ args : List Value, (∀ v ∈ args, Q v) → Quiet (·.isPlain = true) (f.body args)) : f.Upholds Q := by
  intro args hargs
  have hanswer := h args hargs
  cases hbody : f.body args with
  | ok v =>
    rw [hbody] at hanswer
    exact hQ.plain hanswer
  | error failure =>
    rw [hbody] at hanswer
    cases failure with
    | message text => rfl
    | panic text => cases hanswer

/-! ## Rules -/

namespace RuleKind

variable {Q : Value → Prop} (hQ : Value.Inherited Q)

include hQ

theorem upholds_binary {name pattern : String} {precedence : Int} {build : Expr → Expr → Except Refusal Expr}
    (h : ∀ {left right e : Expr}, left.MadeOf Q → right.MadeOf Q → build left right = .ok e → e.MadeOf Q) :
    (Rule.binary name pattern precedence build).kind.Upholds Q := by
  intro text args e hargs hbuild
  dsimp only at hbuild
  split at hbuild
  · obtain ⟨hl, hr⟩ := List.forall_mem_cons.1 hargs
    obtain ⟨hl, hr⟩ := Expr.MadeOf.implicit hQ hl (List.forall_mem_singleton.1 hr)
    exact h hl hr hbuild
  · cases hbuild

omit hQ in
theorem upholds_functionCall {functions : List Function} (h : ∀ f ∈ functions, f.Upholds Q) :
    (functionCall (functions.map Overload.ofFunction)).Upholds Q := by
  intro o ho args e hargs hbuild
  obtain ⟨f, hf, rfl⟩ := List.mem_map.1 ho
  exact Expr.MadeOf.call? (h f hf) hargs (Refusal.ofExpr_eq_ok.1 hbuild)

/-- A literal is made of a plain value. -/
theorem madeOf_literal {α : Type} {f : α → Value} (hf : ∀ a, (f a).isPlain = true) {x : Except ValueError α}
    {e : Expr} (h : Refusal.ofValue (x.map fun a => Expr.ofValue (f a)) = .ok e) : e.MadeOf Q := by
  obtain ⟨a, -, rfl⟩ := map_eq_ok.1 (Refusal.ofValue_eq_ok.1 h)
  exact Expr.MadeOf.ofValue hQ (hf a)

end RuleKind

/-! ## Decimal formulas -/

namespace Arithmetic

theorem quiet_doubleArg (args : List Value) (index : Nat) : Quiet (fun _ => True) (doubleArg args index) := by
  unfold doubleArg
  split
  · trivial
  · rfl

theorem quiet_decimalArg (args : List Value) (index : Nat) :
    Quiet (fun _ => True) (decimalArg args index) := by
  unfold decimalArg
  split
  · trivial
  · rfl

theorem quiet_placesArg (args : List Value) (index : Nat) : Quiet (fun _ => True) (placesArg args index) := by
  unfold placesArg
  split
  · split
    · rfl
    · trivial
  · rfl

/-- The functions of formulas do not panic, whatever they are called with. -/
theorem quiet_functions : ∀ entry ∈ functions, ∀ f ∈ entry.2.2, ∀ args : List Value,
    Quiet (·.isPlain = true) (f.body args) := by
  have hdouble (name : String) (f : Float → Float) (args : List Value) :
      Quiet (·.isPlain = true) ((ofDouble name f).body args) :=
    (quiet_doubleArg args 0).bind fun _ _ => rfl
  have hdoubles (name : String) (f : Float → Float → Float) (args : List Value) :
      Quiet (·.isPlain = true) ((ofDoubles name f).body args) :=
    (quiet_doubleArg args 0).bind fun _ _ => (quiet_doubleArg args 1).bind fun _ _ => rfl
  have hround (args : List Value) : Quiet (·.isPlain = true) (round.body args) :=
    (quiet_decimalArg args 0).bind fun _ _ => rfl
  have hplaces (args : List Value) : Quiet (·.isPlain = true) (roundPlaces.body args) :=
    (quiet_placesArg args 1).bind fun _ _ => (quiet_decimalArg args 0).bind fun _ _ => rfl
  simp [functions, hdouble, hdoubles, hround, hplaces]

variable {Q : Value → Prop} (hQ : Value.Inherited Q)

include hQ

theorem upholds_operator (name pattern : String) (precedence : Int) (op : BinaryOp) :
    (operator name pattern precedence op).kind.Upholds Q :=
  RuleKind.upholds_binary hQ fun hl hr h => hl.binary? hr (Refusal.ofExpr_eq_ok.1 h)

omit hQ in
theorem madeOf_path {names : List String} {target e : Expr} (htarget : target.MadeOf Q)
    (h : names.foldlM Expr.field? target = .ok e) : e.MadeOf Q := by
  induction names generalizing target with
  | nil =>
    cases h
    exact htarget
  | cons name names ih =>
    rw [List.foldlM_cons] at h
    obtain ⟨next, hnext, h⟩ := bind_eq_ok.1 h
    exact ih (htarget.field? hnext) h

omit hQ in
theorem upholds_property : (RuleKind.operand property).Upholds Q := by
  intro text parameters e h
  unfold property at h
  split at h
  · cases h
  · rename_i record _
    have htarget : (Expr.ofParameter 0 record).MadeOf Q := trivial
    exact madeOf_path htarget (Refusal.ofExpr_eq_ok.1 h)

theorem upholds_rules : ∀ r ∈ rules, r.kind.Upholds Q := by
  intro r hr
  simp only [rules, List.mem_append, List.mem_cons, List.not_mem_nil, or_false, List.mem_map] at hr
  rcases hr with ((rfl | rfl) | ⟨entry, hentry, rfl⟩) | rfl | rfl | rfl | rfl | rfl | rfl | rfl | rfl |
    rfl | rfl
  case inl.inl.inl =>
    exact fun _ _ _ h => RuleKind.madeOf_literal hQ (f := Value.number) (fun _ => rfl) h
  case inl.inl.inr =>
    intro text scope e h
    cases h
    exact Expr.MadeOf.ofValue hQ rfl
  case inl.inr =>
    exact RuleKind.upholds_functionCall fun f hf =>
      Function.upholds_of_quiet hQ fun args _ => quiet_functions entry hentry f hf args
  all_goals first
    | exact upholds_operator hQ _ _ _ _
    | exact upholds_property
    | trivial

/-- A formula never panics. -/
theorem madeOf_of_compile {text : String} {parameters : List Parameter} {f : Lambda}
    (h : compile text parameters = .ok f) : f.body.MadeOf Q := by
  obtain ⟨body, hbody, h⟩ := bind_eq_ok.1 h
  obtain ⟨converted, hconverted, h⟩ := bind_eq_ok.1 h
  cases h
  have hbody := Language.madeOf_of_parse hQ (make?_eq_ofRules rules_fit) (upholds_rules hQ) hbody
  unfold toDecimal at hconverted
  dsimp only at hconverted
  split at hconverted
  · rename_i e he
    split at hconverted
    · cases hconverted
      exact Expr.MadeOf.convertTo hQ hbody he
    · simp at hconverted
  · simp at hconverted
  · simp at hconverted

end Arithmetic

/-! ## Filters -/

namespace Filter

theorem quiet_textArgs (args : List Value) : Quiet (fun _ => True) (textArgs args) := by
  induction args with
  | nil => trivial
  | cons v args ih =>
    unfold textArgs
    split
    · trivial
    · rename_i heq
      cases heq
      exact ih.bind fun _ _ => trivial
    · rfl

theorem quiet_ofTexts {name : String} {arity : Nat} {returns : ValueType}
    {body : List String → Except HostFailure Value}
    (hbody : ∀ texts, Quiet (·.isPlain = true) (body texts)) (args : List Value) :
    Quiet (·.isPlain = true) ((ofTexts name arity returns body).body args) := by
  dsimp only [ofTexts]
  split
  · rfl
  · exact (quiet_textArgs args).bind fun texts _ => hbody texts

theorem quiet_testOfTexts (name : String) (test : String → String → Bool) (args : List Value) :
    Quiet (·.isPlain = true) ((testOfTexts name test).body args) := by
  refine quiet_ofTexts (fun texts => ?_) args
  split <;> rfl

theorem quiet_ofText {name : String} {returns : ValueType} {body : String → Except HostFailure Value}
    (hbody : ∀ text, Quiet (·.isPlain = true) (body text)) (args : List Value) :
    Quiet (·.isPlain = true) ((ofText name returns body).body args) := by
  refine quiet_ofTexts (fun texts => ?_) args
  split
  · exact hbody _
  · rfl

theorem quiet_intResult (n : Int) : Quiet (·.isPlain = true) (intResult n) := by
  unfold intResult
  split
  · rename_i hv
    obtain ⟨m, -, rfl⟩ := Option.map_eq_some_iff.1 hv
    rfl
  · rfl

theorem quiet_round (args : List Value) : Quiet (·.isPlain = true) (round.body args) := by
  dsimp only [round]
  split <;> rfl

/-- A part of a moment is read without a panic if the clock shows a moment. -/
theorem quiet_datePart (name : String) (part : Calendar.WallTime → Int) (type : ValueType)
    {args : List Value} (hargs : ∀ v ∈ args, v.Local) :
    Quiet (·.isPlain = true) ((datePart name part type).body args) := by
  dsimp only [datePart]
  split
  · exact quiet_intResult _
  · rename_i m rest
    have hlocal : m.Local := of_decide_eq_true (hargs _ List.mem_cons_self)
    rw [Calendar.OffsetMoment.localTime?, Calendar.WallTime.moment?_eq _ hlocal]
    exact quiet_intResult _
  · rfl
  · rfl

/-- The functions of filters do not panic if the clocks of all moments in their arguments show moments. -/
theorem quiet_functions : ∀ entry ∈ functions, ∀ f ∈ entry.2.2, ∀ args : List Value,
    (∀ v ∈ args, v.Local) → Quiet (·.isPlain = true) (f.body args) := by
  have htext (name : String) (change : String → String) (args : List Value) :
      Quiet (·.isPlain = true) ((ofText name .string fun s => .ok (.string (change s))).body args) := by
    apply quiet_ofText
    exact fun text => rfl
  have hlength (args : List Value) :
      Quiet (·.isPlain = true) ((ofText "length" (.number .int) fun s => intResult s.length).body args) :=
    quiet_ofText (fun _ => quiet_intResult _) args
  have hparts (name : String) (part : Calendar.WallTime → Int) : ∀ f ∈ dateParts name part,
      ∀ args : List Value, (∀ v ∈ args, v.Local) → Quiet (·.isPlain = true) (f.body args) := by
    intro f hf args hargs
    rcases List.mem_pair.1 hf with rfl | rfl <;> exact quiet_datePart _ _ _ hargs
  simp only [functions, List.forall_mem_cons, List.not_mem_nil, IsEmpty.forall_iff, implies_true, and_true,
    quiet_testOfTexts, htext, hlength, quiet_round, true_and]
  exact ⟨hparts _ _, hparts _ _, hparts _ _, hparts _ _, hparts _ _, hparts _ _⟩

variable {Q : Value → Prop} (hQ : Value.Inherited Q)

include hQ

theorem madeOf_truthful {e : Expr} (h : e.MadeOf Q) : (truthful e).MadeOf Q := by
  unfold truthful
  cases hx : e.toBoolean? with
  | none => exact h
  | some x => exact Expr.MadeOf.toBoolean? hQ h hx

theorem upholds_quantifier (op : CollectionOp) : (RuleKind.collectionBracket (quantifier op)).Upholds Q := by
  intro text source body e hsource hbody h
  refine hsource.collection? (fun b hb => ?_) (Refusal.ofExpr_eq_ok.1 h)
  obtain ⟨predicate, hpredicate, rfl⟩ := Option.map_eq_some_iff.1 hb
  exact madeOf_truthful hQ (hbody predicate hpredicate)

theorem upholds_plain (name pattern : String) (precedence : Int) (op : BinaryOp) :
    (Rule.binary name pattern precedence (plain op)).kind.Upholds Q :=
  RuleKind.upholds_binary hQ fun hl hr h => hl.binary? hr (Refusal.ofExpr_eq_ok.1 h)

theorem upholds_connective (name pattern : String) (precedence : Int) (op : BinaryOp) :
    (Rule.binary name pattern precedence (connective op)).kind.Upholds Q :=
  RuleKind.upholds_binary hQ fun hl hr h =>
    (madeOf_truthful hQ hl).binary? (madeOf_truthful hQ hr) (Refusal.ofExpr_eq_ok.1 h)

theorem upholds_equality (name pattern : String) (precedence : Int) (op : BinaryOp) :
    (Rule.binary name pattern precedence (equality op)).kind.Upholds Q := by
  refine RuleKind.upholds_binary hQ fun hl hr h => ?_
  have hnumber := Expr.MadeOf.enumNumber hQ hl hr
  unfold equality at h
  dsimp only at h
  split at h
  · exact hnumber.1.binary? hnumber.2 (Refusal.ofExpr_eq_ok.1 h)
  · obtain ⟨pair, hpair, h⟩ := bind_eq_ok.1 h
    have hsymbol := Expr.MadeOf.enumString hQ hnumber.1 hnumber.2 (mapError_eq_ok.1 hpair)
    exact hsymbol.1.binary? hsymbol.2 (Refusal.ofExpr_eq_ok.1 h)

theorem upholds_not {name pattern : String} {precedence : Int} :
    (Rule.unary name pattern precedence .right fun operand =>
      Refusal.ofExpr (Expr.unary? .not (truthful operand))).kind.Upholds Q := by
  intro text args e hargs h
  dsimp only at h
  split at h
  · exact (madeOf_truthful hQ (List.forall_mem_singleton.1 hargs)).unary? (Refusal.ofExpr_eq_ok.1 h)
  · cases h

omit hQ in
theorem upholds_property : (RuleKind.operand property).Upholds Q := by
  intro text parameters e h
  unfold property at h
  dsimp only at h
  split at h
  · cases h
    trivial
  · rename_i record _ _
    have htarget : (Expr.ofParameter 0 record).MadeOf Q := trivial
    exact htarget.field? (Refusal.ofExpr_eq_ok.1 h)
  · cases h

omit hQ in
theorem upholds_member {positions : List Side} {precedence : Option Int} :
    (RuleKind.operator positions precedence member).Upholds Q := by
  intro text args e hargs h
  unfold member at h
  split at h
  · exact (List.forall_mem_singleton.1 hargs).field? (Refusal.ofExpr_eq_ok.1 h)
  · cases h

/-- A moment with an offset that is written in a filter is read from a text. -/
theorem upholds_literals : ∀ r ∈ literals, r.kind.Upholds Q := by
  have hnumber (name pattern : String) (kind : NumericKind) : (numberRule name pattern kind).kind.Upholds Q :=
    fun _ _ _ h => RuleKind.madeOf_literal hQ (f := Value.number) (fun _ => rfl) h
  simp only [literals, List.forall_mem_cons, List.not_mem_nil, IsEmpty.forall_iff, implies_true,
    and_true, hnumber]
  refine ⟨?_, ?_, ?_, ?_, ?_, ?_, ?_⟩
  · exact fun _ _ _ h => RuleKind.madeOf_literal hQ (f := Value.guid) (fun _ => rfl) h
  · exact fun _ _ _ h => RuleKind.madeOf_literal hQ (f := Value.dateTime) (fun _ => rfl) h
  · intro text scope e h
    obtain ⟨m, hm, rfl⟩ := map_eq_ok.1 (Refusal.ofValue_eq_ok.1 h)
    exact hQ.offset (Calendar.OffsetMoment.local_of_ofText hm)
  · intro text scope e h
    cases h
    exact Expr.MadeOf.ofValue hQ rfl
  · intro text scope e h
    dsimp only [byteValue] at h
    split at h
    · cases h
      exact Expr.MadeOf.ofValue hQ rfl
    · cases h
  · intro text scope e h
    cases h
    exact Expr.MadeOf.null hQ
  · intro text scope e h
    cases h
    exact Expr.MadeOf.ofValue hQ rfl

omit hQ in
theorem upholds_rules : ∀ r ∈ rules, r.kind.Upholds Value.Local := by
  have hQ := Value.inherited_local
  intro r hr
  simp only [rules, List.mem_append, List.mem_cons, List.not_mem_nil, or_false, List.mem_map] at hr
  rcases hr with ((hr | rfl | rfl) | ⟨entry, hentry, rfl⟩) | hr
  · exact upholds_literals hQ r hr
  · exact upholds_quantifier hQ .any
  · exact upholds_quantifier hQ .all
  · exact RuleKind.upholds_functionCall fun f hf =>
      Function.upholds_of_quiet hQ (quiet_functions entry hentry f hf)
  rcases hr with rfl | rfl | rfl | rfl | rfl | rfl | rfl | rfl | rfl | rfl | rfl | rfl | rfl | rfl |
    rfl | rfl | rfl | rfl | rfl | rfl | rfl
  all_goals first
    | exact upholds_equality hQ _ _ _ _
    | exact upholds_plain hQ _ _ _ _
    | exact upholds_connective hQ _ _ _ _
    | exact upholds_not hQ
    | exact upholds_property
    | exact upholds_member
    | trivial

omit hQ in
/-- A filter takes local records without a panic. -/
theorem madeOf_of_parse {text : String} {record : RecordType} {f : Lambda}
    (h : parse text record = .ok f) : f.body.MadeOf Value.Local := by
  obtain ⟨body, hbody, h⟩ := bind_eq_ok.1 h
  have hbody := Language.madeOf_of_parse Value.inherited_local (make?_eq_ofRules rules_fit) upholds_rules hbody
  split at h
  · rename_i predicate hpredicate
    cases h
    exact Expr.MadeOf.toBoolean? Value.inherited_local hbody hpredicate
  · simp at h

end Filter

/-! ## Accepted texts -/

theorem Arithmetic.decimalOf_eq_ok {v : Value} {d : Decimal} :
    decimalOf v = .ok d ↔ v = .number (.decimal d) := by
  constructor
  · intro h
    unfold decimalOf at h
    split at h
    · cases h
      rfl
    · cases h
    · cases h
  · rintro rfl
    rfl

theorem Regular.ne_panic {α : Type} {P : α → Prop} {r : Except EvalError α} (h : Regular P r)
    (message : String) : r ≠ .error (.panic message) := by
  rintro rfl
  cases h

/-- What is made of values with an inherited property takes arguments with it without a panic. -/
theorem Lambda.regular_invoke {Q : Value → Prop} (hQ : Value.Inherited Q) {f : Lambda} (hf : f.body.MadeOf Q)
    {args : List Value} (hargs : ∀ v ∈ args, Q v) : Regular Q (f.invoke args) := by
  unfold invoke
  split
  · rfl
  · exact (Expr.upholds_evaluate hQ hf args hargs).1

/-- What either language accepts over a record type has a value of its static type for every record of
that type, a truth value for a filter and a decimal for a formula, or fails in a way that typing does not
rule out. A formula never panics, and a filter does not unless the clock of a moment in the record shows a
time beyond the calendar. -/
theorem outcome_of_accepted {record : RecordType} (hrecord : record.type.WellFormed) {row : Record}
    (hrow : row.toValue.Inhabits record.type) (text : String) :
    (∀ f, Filter.parse text record = .ok f → f.returns = .bool ∧
      Outcome (fun v => v.Inhabits f.returns ∧ ∃ b, v = .bool b) (f.invoke [row.toValue]) ∧
      (row.toValue.Local → ∀ message, f.invoke [row.toValue] ≠ .error (.panic message))) ∧
    ∀ f, Arithmetic.parseOver text record = .ok f → f.returns = .number .decimal ∧
      Outcome (fun v => v.Inhabits f.returns ∧ ∃ d, Arithmetic.decimalOf v = .ok d)
        (f.invoke [row.toValue]) ∧
      ∀ message, f.invoke [row.toValue] ≠ .error (.panic message) := by
  have hargs : List.Forall₂ Value.Inhabits [row.toValue] [record.type] := .cons hrow .nil
  constructor
  · intro f h
    obtain ⟨hparameters, hbody, hreturns⟩ := Filter.typed_of_parse (fun _ => hrecord) h
    refine ⟨hreturns, (Lambda.outcome_invoke ?_ ?_).imp fun v hv => ⟨hv, ?_⟩, fun hlocal => ?_⟩
    · rwa [hparameters]
    · rwa [hparameters]
    · rw [hreturns] at hv
      exact (hv.bool rfl).resolve_left (by rintro rfl; cases hv)
    · have hquiet := Lambda.regular_invoke Value.inherited_local (Filter.madeOf_of_parse h)
        (List.forall_mem_singleton.2 hlocal)
      exact hquiet.ne_panic
  · intro f h
    have hscope : ∀ t ∈ [(⟨none, record.type⟩ : Parameter)].map Parameter.type, t.WellFormed :=
      List.forall_mem_singleton.2 hrecord
    obtain ⟨hparameters, hbody, hreturns⟩ := Arithmetic.typed_of_compile (fun _ => hscope) h
    refine ⟨hreturns, (Lambda.outcome_invoke ?_ ?_).imp fun v hv => ⟨hv, ?_⟩, ?_⟩
    · rwa [hparameters]
    · rwa [hparameters]
    · rw [hreturns] at hv
      obtain ⟨n, rfl, hn⟩ := (hv.number rfl).resolve_left (by rintro rfl; cases hv)
      cases n with
      | decimal d => exact ⟨d, Arithmetic.decimalOf_eq_ok.2 rfl⟩
      | integral k i hi =>
        obtain ⟨lo, hi', hbounds, -⟩ := Number.bounds_of_holds hi
        rw [show k = .decimal from hn] at hbounds
        cases hbounds
      | float x => cases hn
      | double x => cases hn
    · have hmade := Arithmetic.madeOf_of_compile Value.inherited_true h
      exact (Lambda.regular_invoke Value.inherited_true hmade fun _ _ => trivial).ne_panic

/-- The type of orders with a total that may lack and labels. -/
def orderType : RecordType :=
  ⟨"Order", [("Total", .nullable (.number .int)), ("Labels", .collection .string)]⟩

/-- An order without a total. -/
def unpricedOrder : Record := ⟨orderType, [.null, .list [.string "new", .null]]⟩

/-- The type of events with a time. -/
def eventType : RecordType := ⟨"Event", [("At", .dateTimeOffset)]⟩

/-- The last nanosecond of the calendar, by a clock that is an hour ahead. -/
def lastInstant : Calendar.OffsetMoment :=
  ⟨⟨⟨Calendar.Date.dayNumber ⟨262142, 12, 31⟩, 86399, 999999999, by decide⟩, by decide⟩, 3600, by decide⟩

/-- An event at the last instant. -/
def lastEvent : Record := ⟨eventType, [.dateTimeOffset lastInstant]⟩

set_option maxRecDepth 100000 in
/-- What a filter comes to for the order, and another one for the event. Both are one evaluation, since the
language is read anew in each. -/
theorem filters_run :
    (((Filter.parse "Total gt 3 or Labels/any(l: l eq 'new')" orderType).toOption.any fun f =>
        (f.invoke [unpricedOrder.toValue]).toOption.any (· matches .bool true)) &&
      (Filter.parse "year(At) eq 1" eventType).toOption.any fun f =>
        f.invoke [lastEvent.toValue] matches
          .error (.panic "Local time out of range for `NaiveDateTime`")) = true := by
  decide +kernel

set_option maxRecDepth 100000 in
/-- A filter selects an order without a total by one of its labels, and a formula comes to minus two. -/
theorem outcome_of_accepted_order :
    (∃ f, Filter.parse "Total gt 3 or Labels/any(l: l eq 'new')" orderType = .ok f ∧ f.returns = .bool ∧
      f.invoke [unpricedOrder.toValue] = .ok (.bool true)) ∧
    ∃ f, Arithmetic.parseOver "2*(3- 4)" orderType = .ok f ∧ f.returns = .number .decimal ∧
      f.invoke [unpricedOrder.toValue] = .ok (.number (.decimal ⟨true, 2, 0, by decide, by decide⟩)) := by
  have hcomes : ((Arithmetic.parseOver "2*(3- 4)" orderType).toOption.any fun f =>
      (f.invoke [unpricedOrder.toValue]).toOption.any fun v =>
        (Arithmetic.decimalOf v).toOption == some ⟨true, 2, 0, by decide, by decide⟩) = true := by
    decide +kernel
  obtain ⟨hruns, -⟩ := Bool.and_eq_true_iff.1 filters_run
  obtain ⟨f, hf, hv⟩ := (Option.any_eq_true _ _).1 hruns
  obtain ⟨g, hg, hd⟩ := (Option.any_eq_true _ _).1 hcomes
  have hf := toOption_eq_some.1 hf
  have hg := toOption_eq_some.1 hg
  have hrow : unpricedOrder.toValue.Inhabits orderType.type := by decide +kernel
  obtain ⟨hbool, hselects, -⟩ := (outcome_of_accepted rfl hrow _).1 f hf
  obtain ⟨hdecimal, -, -⟩ := (outcome_of_accepted rfl hrow _).2 g hg
  refine ⟨⟨f, hf, hbool, ?_⟩, g, hg, hdecimal, ?_⟩
  · obtain ⟨v, hv, htrue⟩ := (Option.any_eq_true _ _).1 hv
    rw [toOption_eq_some.1 hv] at hselects ⊢
    obtain ⟨-, b, rfl⟩ := hselects
    cases b with
    | true => rfl
    | false => cases htrue
  · obtain ⟨v, hv, hd⟩ := (Option.any_eq_true _ _).1 hd
    rw [toOption_eq_some.1 hv, Arithmetic.decimalOf_eq_ok.1 (toOption_eq_some.1 (beq_iff_eq.1 hd))]

/-- The year of the last instant cannot be read by a clock that is ahead: the filter panics, though it is
accepted and the record is one of its schema. -/
theorem panic_of_lastInstant :
    eventType.type.WellFormed ∧ lastEvent.toValue.Inhabits eventType.type ∧
    ∃ f, Filter.parse "year(At) eq 1" eventType = .ok f ∧
      f.invoke [lastEvent.toValue] = .error (.panic "Local time out of range for `NaiveDateTime`") := by
  obtain ⟨-, hpanics⟩ := Bool.and_eq_true_iff.1 filters_run
  obtain ⟨f, hf, hpanics⟩ := (Option.any_eq_true _ _).1 hpanics
  refine ⟨rfl, by decide +kernel, f, toOption_eq_some.1 hf, ?_⟩
  split at hpanics
  · assumption
  · cases hpanics

end Parlance
