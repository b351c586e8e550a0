import Parlance.Proofs.Guards
import Parlance.Proofs.Links
import Parlance.Proofs.Matches

/-!
# Safety

The guards of a parse hold. The guarded parse of a text does what the parse does, with every span over
that text (`Tracks`), and so it never panics; and where it fails, the span of the error lies between two
characters of the text. Operands, activations and errors get their spans from those of tokens by a few
operations, each of which keeps them within the text (`Extent.Within`).
-/

namespace Parlance

/-! ## Extents of a text -/

namespace Text

theorem le_of_isBoundary {cs : List Char} {offset : Nat} (h : isBoundary cs offset = true) :
    offset ≤ byteLength cs := by
  obtain ⟨before, after, rfl, rfl⟩ := exists_of_isBoundary h
  rw [byteLength_append]
  exact Nat.le_add_right _ _

theorem isBoundary_byteLength (cs : List Char) : isBoundary cs (byteLength cs) = true := by
  simpa using isBoundary_append cs []

end Text

namespace Extent.Within

variable {text : String} {a b : Extent} {es : List Extent}

theorem start_within (h : a.Within text) : (point a.start).Within text := ⟨le_rfl, h.2.1, h.2.1⟩

theorem stop_within (h : a.Within text) : (point a.stop).Within text := ⟨le_rfl, h.2.2, h.2.2⟩

theorem cover (ha : a.Within text) (hb : b.Within text) : (a.cover b).Within text := by
  refine ⟨?_, ?_, ?_⟩
  · exact (min_le_left _ _).trans (ha.1.trans (le_max_left _ _))
  · rcases Nat.le_total a.start b.start with h | h <;> simp [Extent.cover, h, ha.2.1, hb.2.1]
  · rcases Nat.le_total a.stop b.stop with h | h <;> simp [Extent.cover, h, ha.2.2, hb.2.2]

theorem coverAll (ha : a.Within text) (hes : ∀ e ∈ es, e.Within text) : (a.coverAll es).Within text := by
  induction es generalizing a with
  | nil => exact ha
  | cons e es ih =>
    obtain ⟨he, hes⟩ := List.forall_mem_cons.1 hes
    exact ih (ha.cover he) hes

theorem gap (ha : a.Within text) (hb : b.Within text) : (a.gap b).Within text := by
  refine ⟨le_max_right _ _, ha.2.2, ?_⟩
  rcases Nat.le_total b.start a.stop with h | h <;> simp [Extent.gap, h, hb.2.1, ha.2.2]

theorem stop_le (h : a.Within text) : a.stop ≤ Text.byteLength text.toList :=
  Text.le_of_isBoundary h.2.2

theorem whole (text : String) : (Extent.whole text).Within text :=
  ⟨Nat.zero_le _, Text.isBoundary_zero _, Text.isBoundary_byteLength _⟩

end Extent.Within

/-! ## Over one text -/

variable {text : String}

/-- The token with the span of its text. -/
def Token.onText (text : String) (t : Token) : Guarded.Token := ⟨t.rule, ⟨text, t.extent⟩⟩

/-- The operand with its span. -/
def Operand.onText (text : String) (o : Operand) : Guarded.Operand := ⟨o.expr, ⟨text, o.extent⟩⟩

/-- The activation with its span. -/
def Activation.onText (text : String) (a : Activation) : Guarded.Activation := ⟨a.token.onText text, a.slot⟩

/-- The parse state with its spans. -/
def ParseState.onText (text : String) (s : ParseState) : Guarded.State :=
  ⟨s.parameters, s.operands.map (Operand.onText text), s.operators.map (Activation.onText text)⟩

/-- The error at its span. -/
def ParseError.onText (text : String) (e : ParseError) : Failure := ⟨⟨text, e.extent⟩, e.fault⟩

namespace Span

variable {a b : Extent}

theorem sameSource_self (a b : Extent) : (Span.mk text a).sameSource ⟨text, b⟩ = true := by
  simp [sameSource]

@[simp] theorem together_over (a b : Extent) : together ⟨text, a⟩ ⟨text, b⟩ = .done () := by
  rw [together, sameSource_self, if_pos rfl]

@[simp] theorem isAfter_over (a b : Extent) :
    isAfter ⟨text, a⟩ ⟨text, b⟩ = .done (a.rightOf b) := by
  rw [isAfter, together_over]
  rfl

@[simp] theorem isBefore_over (a b : Extent) :
    isBefore ⟨text, a⟩ ⟨text, b⟩ = .done (a.leftOf b) := by
  rw [isBefore, together_over]
  rfl

@[simp] theorem liesBetween_over (e a b : Extent) :
    liesBetween ⟨text, e⟩ ⟨text, a⟩ ⟨text, b⟩ = .done (e.isBetween a b) := by
  rw [liesBetween, together_over, together_over]
  rfl

theorem within_over (h : a.Within text) : within text a.start a.stop = .done ⟨text, a⟩ := by
  rw [within, if_pos]
  simpa using ⟨h.1, h.stop_le⟩

theorem pointAt_over {offset : Nat} (h : (Extent.point offset).Within text) :
    pointAt ⟨text, a⟩ offset = .done ⟨text, .point offset⟩ := within_over h

theorem merge_over (ha : a.Within text) (hb : b.Within text) :
    merge ⟨text, a⟩ ⟨text, b⟩ = .done ⟨text, a.cover b⟩ := by
  rw [merge, together_over]
  exact within_over (ha.cover hb)

theorem gapTo_over (ha : a.Within text) (hb : b.Within text) :
    gapTo ⟨text, a⟩ ⟨text, b⟩ = .done ⟨text, a.gap b⟩ := by
  rw [gapTo, together_over]
  exact within_over (ha.gap hb)

theorem mergeAll_over {es : List Extent} (ha : a.Within text) (hes : ∀ e ∈ es, e.Within text) :
    mergeAll ⟨text, a⟩ (es.map (Span.mk text)) = .done ⟨text, a.coverAll es⟩ := by
  induction es generalizing a with
  | nil => rfl
  | cons e es ih =>
    obtain ⟨he, hes⟩ := List.forall_mem_cons.1 hes
    rw [List.map_cons, mergeAll, List.foldlM_cons, merge_over ha he]
    exact ih (ha.cover he) hes

theorem read_over (h : a.Within text) : read ⟨text, a⟩ = .done (a.slice text) := by
  rw [read, if_pos h]
  rfl

end Span

/-- The spans of operands over a text. -/
theorem map_span_over (xs : List Operand) :
    (xs.map (Operand.onText text)).map Guarded.Operand.span =
      (xs.map Operand.extent).map (Span.mk text) := by
  simp [Operand.onText]

theorem map_expr_over (xs : List Operand) :
    (xs.map (Operand.onText text)).map Guarded.Operand.expr = xs.map Operand.expr := by
  simp [Operand.onText]

/-- The extents of operands lie within a text. -/
abbrev OperandsWithin (text : String) (xs : List Operand) : Prop := ∀ o ∈ xs, o.extent.Within text

theorem OperandsWithin.extents {xs : List Operand} (h : OperandsWithin text xs) :
    ∀ e ∈ xs.map Operand.extent, e.Within text := by
  simpa using h

theorem OperandsWithin.coverAll {xs : List Operand} (h : OperandsWithin text xs) (hne : xs ≠ []) :
    (Operand.coverAll xs).Within text := by
  cases xs with
  | nil => exact absurd rfl hne
  | cons x xs =>
    obtain ⟨hx, hxs⟩ := List.forall_mem_cons.1 h
    exact hx.coverAll (OperandsWithin.extents hxs)

theorem encompass_over {xs : List Operand} (h : OperandsWithin text xs) (hne : xs ≠ []) :
    Span.encompass ((xs.map (Operand.onText text)).map Guarded.Operand.span) =
      .done ⟨text, Operand.coverAll xs⟩ := by
  cases xs with
  | nil => exact absurd rfl hne
  | cons x xs =>
    obtain ⟨hx, hxs⟩ := List.forall_mem_cons.1 h
    rw [map_span_over]
    exact Span.mergeAll_over hx (OperandsWithin.extents hxs)

/-! ## Tracking -/

/-- A guarded computation does what one without guards does, over a text: it has the same value, of which
something holds, or the same error, whose extent lies within the text. -/
inductive Tracks {α β : Type} (text : String) (carry : α → β) (P : α → Prop) :
    Attempt β → Except ParseError α → Prop
  | done {a : α} (holds : P a) : Tracks text carry P (.done (carry a)) (.ok a)
  | failed {e : ParseError} (within : e.extent.Within text) :
      Tracks text carry P (.failed (e.onText text)) (.error e)

namespace Tracks

variable {α β γ δ : Type} {carry : α → β} {carry' : γ → δ} {P Q : α → Prop} {R : γ → Prop}
  {x : Attempt β} {r : Except ParseError α} {e : Extent} {fault : Fault}

theorem bind {f : β → Attempt δ} {k : α → Except ParseError γ} (h : Tracks text carry P x r)
    (hf : ∀ a, P a → Tracks text carry' R (f (carry a)) (k a)) :
    Tracks text carry' R (x >>= f) (r >>= k) := by
  cases h with
  | done holds => exact hf _ holds
  | failed within => exact .failed within

/-- A value and the one that it stands for. -/
theorem value {a : α} {b : β} (holds : P a) (h : b = carry a) :
    Tracks text carry P (pure b) (pure a) := by
  subst h
  exact .done holds

theorem fail (h : e.Within text) :
    Tracks text carry P (Span.fail ⟨text, e⟩ fault) (e.fail fault) :=
  .failed (e := ⟨e, fault⟩) h

theorem ite {c : Prop} [Decidable c] {y : Attempt β} {q : Except ParseError α}
    (hx : Tracks text carry P x r) (hy : Tracks text carry P y q) :
    Tracks text carry P (if c then x else y) (if c then r else q) := by
  split
  · exact hx
  · exact hy

theorem checked (h : e.Within text) (r : Except Refusal α) :
    Tracks text id (fun _ => True) (Guarded.checked ⟨text, e⟩ r) (e.checked r) := by
  cases r with
  | ok a =>
    show Tracks text id _ (.done (id a)) (.ok a)
    exact .done trivial
  | error refusal => exact .failed (e := ⟨e, .operationInvalid refusal⟩) h

end Tracks

namespace Guarded

theorem done_bind {α β : Type} (a : α) (f : α → Attempt β) : (Attempt.done a >>= f) = f a := rfl

/-! ## Rules and links -/

/-- A token of a text, of one of the rules, whose builder may cut its text. -/
structure Fits (w : Setting) (text : String) (t : Parlance.Token) : Prop where
  covers : Scanner.Covers text t
  exists_rule : ∃ rule, w.grammar.rules[t.rule]? = some rule ∧
    ∀ e ∈ w.cuts rule.name t.text, e.Within t.text

variable {w : Setting} {t : Parlance.Token}

theorem Fits.kindAt (h : Fits w text t) : w.kindAt t.rule = .done (w.grammar.kind t.rule) := by
  obtain ⟨rule, hrule, -⟩ := h.exists_rule
  rw [Setting.kindAt, Setting.ruleAt, lookup, hrule, Grammar.kind_eq hrule]
  rfl

theorem Fits.read (h : Fits w text t) : (t.onText text).span.read = .done t.text := by
  rw [h.covers.text_eq]
  exact Span.read_over h.covers.within

theorem Fits.textFor (h : Fits w text t) : w.textFor (t.onText text) = .done t.text := by
  obtain ⟨rule, hrule, hcuts⟩ := h.exists_rule
  have hread := h.read
  have hrule : w.ruleAt (t.onText text).rule = .done rule := by
    simp only [Token.onText, Setting.ruleAt, lookup, hrule]
  have hfind : (w.cuts rule.name t.text).find? (fun e => !decide (e.Within t.text)) = none := by
    simpa using hcuts
  simp only [Setting.textFor, hrule, hread, done_bind, hfind]
  rfl

/-! ## Reduction -/

variable {op : Extent} {operands contents : List Parlance.Operand} {positions : List Side}
  {boundary : Nat}

/-- Both lists of a pair, with their spans. -/
abbrev overPair (text : String) (p : List Parlance.Operand × List Parlance.Operand) :
    List Operand × List Operand :=
  (p.1.map (Operand.onText text), p.2.map (Operand.onText text))

theorem splitRight_over (op : Extent) (operands : List Parlance.Operand) :
    splitRight ⟨text, op⟩ (operands.map (Operand.onText text)) =
      .done (overPair text (Operand.splitRight op operands)) := by
  induction operands with
  | nil => rfl
  | cons o operands ih =>
    have hafter : (o.onText text).span.isAfter ⟨text, op⟩ = .done (o.extent.rightOf op) :=
      Span.isAfter_over _ _
    rw [List.map_cons, splitRight, hafter, done_bind]
    by_cases ho : o.extent.rightOf op = true
    · simp only [ho, if_true, ih, done_bind]
      simp only [overPair, Operand.splitRight, List.takeWhile_cons, ho, if_true, List.length_cons,
        List.drop_succ_cons, List.reverse_cons, List.map_append, List.map_cons, List.map_nil]
      rfl
    · simp only [ho, overPair, Operand.splitRight, List.takeWhile_cons]
      rfl

theorem splitLeft_over (boundary count : Nat) (operands : List Parlance.Operand) :
    splitLeft boundary count (operands.map (Operand.onText text)) =
      overPair text (Operand.splitLeft boundary count operands) := by
  induction count generalizing operands with
  | zero => cases operands <;> rfl
  | succ count ih =>
    cases operands with
    | nil => rfl
    | cons o operands =>
      have hindex : (o.onText text).span.rightOfIndex boundary = decide (boundary ≤ o.extent.start) := rfl
      rw [List.map_cons, splitLeft, hindex, ih]
      by_cases ho : boundary ≤ o.extent.start
      · simp [overPair, Operand.splitLeft, ho]
      · simp [overPair, Operand.splitLeft, ho]

theorem arrange_over (positions : List Side) (left right : List Parlance.Operand) :
    arrange positions (left.map (Operand.onText text)) (right.map (Operand.onText text)) =
      (Operand.arrange positions left right).map (Operand.onText text) := by
  fun_induction Operand.arrange positions left right <;> simp_all [arrange]

theorem withins_splitRight (h : OperandsWithin text operands) :
    OperandsWithin text (Operand.splitRight op operands).1 ∧
      OperandsWithin text (Operand.splitRight op operands).2 :=
  ⟨fun o ho => h o ((List.takeWhile_sublist _).mem (List.mem_reverse.1 ho)),
    fun o ho => h o (List.mem_of_mem_drop ho)⟩

theorem withins_splitLeft {count : Nat} (h : OperandsWithin text operands) :
    OperandsWithin text (Operand.splitLeft boundary count operands).1 ∧
      OperandsWithin text (Operand.splitLeft boundary count operands).2 :=
  ⟨fun o ho => h o (List.mem_of_mem_take ((List.takeWhile_sublist _).mem (List.mem_reverse.1 ho))),
    fun o ho => h o (List.mem_of_mem_drop ho)⟩

theorem tracks_takeOperands (hop : op.Within text) (h : OperandsWithin text operands) :
    Tracks text (overPair text) (fun p => OperandsWithin text p.1 ∧ OperandsWithin text p.2)
      (takeOperands ⟨text, op⟩ positions boundary (operands.map (Operand.onText text)))
      (Parlance.takeOperands op positions boundary operands) := by
  obtain ⟨hright, hrest⟩ := @withins_splitRight text op operands h
  obtain ⟨hleft, hrest'⟩ := @withins_splitLeft text _ boundary (positions.count .left) hrest
  simp only [takeOperands, Parlance.takeOperands, splitRight_over, done_bind, List.length_map]
  split
  · rename_i hlt
    have hexcess : OperandsWithin text
        ((Operand.splitRight op operands).1.drop (positions.count .right)) :=
      fun o ho => hright o (List.mem_of_mem_drop ho)
    have hne : (Operand.splitRight op operands).1.drop (positions.count .right) ≠ [] := by
      simpa using hlt
    rw [← List.map_drop, encompass_over hexcess hne]
    exact .fail (hexcess.coverAll hne)
  split
  · rw [Span.pointAt_over hop.stop_within]
    exact .fail hop.stop_within
  · rw [splitLeft_over, List.length_map]
    split
    · rw [Span.pointAt_over hop.start_within]
      exact .fail hop.start_within
    · rw [arrange_over]
      refine .value ⟨fun o ho => ?_, hrest'⟩ rfl
      exact (mem_arrange ho).elim (hleft o) (hright o)

theorem boundaryOf_over (below : List Parlance.Activation) :
    boundaryOf (below.map (Activation.onText text)) = Parlance.boundaryOf below := by
  cases below <;> rfl

theorem tracks_reduce {top : Parlance.Activation} {below : List Parlance.Activation}
    (htop : Fits w text top.token) (h : OperandsWithin text operands) :
    Tracks text (List.map (Operand.onText text)) (OperandsWithin text)
      (reduce w (top.onText text) (below.map (Activation.onText text)) (operands.map (Operand.onText text)))
      (Parlance.reduce w.grammar top below operands) := by
  have hkind : w.kindAt (top.onText text).rule = .done (w.grammar.kind top.rule) := htop.kindAt
  have hwithin := htop.covers.within
  simp only [reduce, Parlance.reduce, hkind, done_bind, boundaryOf_over]
  cases w.grammar.kind top.rule with
  | operator positions precedence build =>
    refine (tracks_takeOperands hwithin h).bind fun ⟨args, rest⟩ ⟨hargs, hrest⟩ => ?_
    have hspan : Span.mergeAll (top.onText text).span
        ((args.map (Operand.onText text)).map Operand.span) =
        .done ⟨text, top.extent.coverAll (args.map Operand.extent)⟩ := by
      rw [map_span_over]
      exact Span.mergeAll_over hwithin hargs.extents
    have htext : w.textFor (top.onText text).token = .done top.token.text := htop.textFor
    have hextent := hwithin.coverAll hargs.extents
    simp only [hspan, htext, done_bind, map_expr_over]
    refine (Tracks.checked hextent _).bind fun expr _ => .value ?_ rfl
    exact List.forall_mem_cons.2 ⟨hextent, hrest⟩
  | bracketOpen | functionCall | collectionBracket | listDelimiter => exact .fail hwithin
  | terminal | operand | collectionAccessor | bracketClose => exact .value h rfl

/-- The tokens that wait fit a text. -/
abbrev WaitsFit (w : Setting) (text : String) (operators : List Parlance.Activation) : Prop :=
  ∀ a ∈ operators, Fits w text a.token

variable {operators : List Parlance.Activation} {folds : RuleKind → Bool} {s : ParseState}

theorem tracks_foldWhile (hwaits : WaitsFit w text operators) (h : OperandsWithin text operands) :
    Tracks text (fun p => (p.1.map (Activation.onText text), p.2.map (Operand.onText text)))
      (fun p => WaitsFit w text p.1 ∧ OperandsWithin text p.2)
      (foldWhile w folds (operators.map (Activation.onText text)) (operands.map (Operand.onText text)))
      (Parlance.foldWhile w.grammar folds operators operands) := by
  induction operators generalizing operands with
  | nil => exact .value ⟨hwaits, h⟩ rfl
  | cons top below ih =>
    obtain ⟨htop, hbelow⟩ := List.forall_mem_cons.1 hwaits
    have hkind : w.kindAt (top.onText text).rule = .done (w.grammar.kind top.rule) := htop.kindAt
    simp only [List.map_cons, foldWhile, Parlance.foldWhile, hkind, done_bind]
    split
    · exact (tracks_reduce htop h).bind fun results hresults => ih hbelow hresults
    · exact .value ⟨hwaits, h⟩ rfl

/-- The stacks of a parse state fit a text. -/
structure Valid (w : Setting) (text : String) (s : ParseState) : Prop where
  operands : OperandsWithin text s.operands
  operators : WaitsFit w text s.operators

theorem Valid.foldWhile (h : Valid w text s) :
    Tracks text (ParseState.onText text) (Valid w text) ((s.onText text).foldWhile w folds)
      (s.foldWhile w.grammar folds) :=
  (tracks_foldWhile h.operators h.operands).bind fun _ hp => .value ⟨hp.2, hp.1⟩ rfl

theorem Valid.pushOperand {o : Parlance.Operand} (h : Valid w text s) (ho : o.extent.Within text) :
    Valid w text (s.pushOperand o) :=
  ⟨List.forall_mem_cons.2 ⟨ho, h.operands⟩, h.operators⟩

theorem Valid.await (h : Valid w text s) (ht : Fits w text t) : Valid w text (s.await t) :=
  ⟨h.operands, List.forall_mem_cons.2 ⟨ht, h.operators⟩⟩

/-! ## Calls -/

variable {opening args close : Extent} {single : Bool}

/-- Converted arguments, or the first one without a conversion, with its span. -/
def overConverted (text : String) : Except Mistyped (List Expr) →
    Except (Operand × ValueType) (List Expr)
  | .ok exprs => .ok exprs
  | .error m => .error (m.operand.onText text, m.expected)

/-- The argument without a conversion lies within a text. -/
def MistypedWithin (text : String) : Except Mistyped (List Expr) → Prop
  | .ok _ => True
  | .error m => m.operand.extent.Within text

theorem tracks_convertArgs {types : List ValueType} (h : OperandsWithin text contents) :
    Tracks text (overConverted text) (MistypedWithin text)
      (convertArgs (contents.map (Operand.onText text)) types) (Parlance.convertArgs contents types) := by
  induction contents generalizing types with
  | nil => exact .value trivial rfl
  | cons x contents ih =>
    cases types with
    | nil => exact .value trivial rfl
    | cons type types =>
      obtain ⟨hx, hcontents⟩ := List.forall_mem_cons.1 h
      have hexpr : (x.onText text).expr = x.expr := rfl
      simp only [List.map_cons, convertArgs, Parlance.convertArgs, hexpr]
      cases x.expr.convertTo type with
      | ok converted =>
        cases converted with
        | some expr =>
          refine (ih hcontents).bind fun rest hrest => ?_
          cases rest with
          | ok exprs => exact .value trivial rfl
          | error m => exact .value hrest rfl
        | none => exact .value (a := (.error ⟨x, type⟩ : Except Mistyped (List Expr))) hx rfl
      | error e => cases e <;> exact .fail hx

theorem tracks_convert {o : Overload} (h : OperandsWithin text contents) :
    Tracks text (overConverted text) (MistypedWithin text)
      (convert o (contents.map (Operand.onText text))) (o.convert contents) := by
  unfold convert Overload.convert
  cases o.parameters with
  | some types => exact tracks_convertArgs h
  | none =>
    rw [map_expr_over]
    exact .value trivial rfl

theorem tracks_callFirst (h : OperandsWithin text contents) (hopening : opening.Within text)
    (hargs : args.Within text) (candidates : List Overload) :
    Tracks text id (fun _ => True)
      (callFirst (contents.map (Operand.onText text)) ⟨text, opening⟩ ⟨text, args⟩ single candidates)
      (Parlance.callFirst contents opening args single candidates) := by
  induction candidates with
  | nil => exact .fail hargs
  | cons o candidates ih =>
    refine (tracks_convert h).bind fun converted hconverted => ?_
    cases converted with
    | ok exprs =>
      simp only [overConverted, Span.merge_over hopening hargs, done_bind]
      exact .checked (hopening.cover hargs) _
    | error m =>
      simp only [overConverted]
      cases single with
      | true => exact .fail hconverted
      | false => exact ih

theorem tracks_callFunction {overloads : List Overload} (h : OperandsWithin text contents)
    (hopening : opening.Within text) (hclose : close.Within text) :
    Tracks text (Operand.onText text) (fun o => o.extent.Within text)
      (callFunction overloads (contents.map (Operand.onText text)) ⟨text, opening⟩ ⟨text, close⟩)
      (Parlance.callFunction overloads contents opening close) := by
  obtain ⟨args, hargs, hspan, heq⟩ : ∃ args : Extent, args.Within text ∧
      argsSpan (contents.map (Operand.onText text)) ⟨text, opening⟩ ⟨text, close⟩ = .done ⟨text, args⟩ ∧
      (if contents.isEmpty then opening.gap close else Operand.coverAll contents) = args := by
    cases contents with
    | nil => exact ⟨_, hopening.gap hclose, Span.gapTo_over hopening hclose, rfl⟩
    | cons x contents =>
      have hne : x :: contents ≠ [] := nofun
      exact ⟨_, OperandsWithin.coverAll h hne, encompass_over h hne, rfl⟩
  simp only [callFunction, Parlance.callFunction, hspan, heq, done_bind, List.length_map]
  cases Overload.candidates overloads contents.length with
  | nil => exact .fail hargs
  | cons o candidates =>
    refine (tracks_callFirst h hopening hargs _).bind fun expr _ => ?_
    have hcall := hopening.cover hargs
    simp only [Span.merge_over hopening hargs, done_bind, Span.merge_over hcall hclose]
    exact .value (hcall.cover hclose) rfl

/-! ## Brackets -/

theorem tracks_singleContent (h : OperandsWithin text contents) (hopening : opening.Within text)
    (hclose : close.Within text) :
    Tracks text (Operand.onText text) (fun o => o.extent.Within text)
      (singleContent (contents.map (Operand.onText text)) ⟨text, opening⟩ ⟨text, close⟩)
      (Parlance.singleContent contents opening close) := by
  match contents, h with
  | [], _ =>
    simp only [List.map_nil, singleContent, Parlance.singleContent, Span.gapTo_over hopening hclose,
      done_bind]
    exact .fail (hopening.gap hclose)
  | [inner], h =>
    have hinner := h inner List.mem_cons_self
    have hspan : (inner.onText text).span = ⟨text, inner.extent⟩ := rfl
    simp only [List.map_cons, List.map_nil, singleContent, hspan, Span.merge_over hopening hinner,
      done_bind, Span.merge_over (hopening.cover hinner) hclose]
    exact .value ((hopening.cover hinner).cover hclose) rfl
  | x :: other :: others, h =>
    have hothers := (List.forall_mem_cons.1 h).2
    have hne : other :: others ≠ [] := nofun
    have hexcess := encompass_over hothers hne
    rw [List.map_cons] at hexcess
    simp only [List.map_cons, singleContent, Parlance.singleContent]
    simp only [List.map_cons] at hexcess
    rw [hexcess]
    exact .fail (OperandsWithin.coverAll hothers hne)

theorem tracks_takeSource (h : OperandsWithin text operands) (hopening : opening.Within text) :
    Tracks text (fun p => (p.1.onText text, p.2.map (Operand.onText text)))
      (fun p => p.1.extent.Within text ∧ OperandsWithin text p.2)
      (takeSource ⟨text, opening⟩ (operands.map (Operand.onText text)))
      (Parlance.takeSource opening operands) := by
  have hpoint : Span.pointAt ⟨text, opening⟩ opening.start = .done ⟨text, .point opening.start⟩ :=
    Span.pointAt_over hopening.start_within
  cases operands with
  | nil =>
    simp only [List.map_nil, takeSource, hpoint, done_bind]
    exact .fail hopening.start_within
  | cons x operands =>
    have hbefore : (x.onText text).span.isBefore ⟨text, opening⟩ = .done (x.extent.leftOf opening) :=
      Span.isBefore_over _ _
    simp only [List.map_cons, takeSource, Parlance.takeSource, hbefore, done_bind]
    split
    · exact .value (List.forall_mem_cons.1 h) rfl
    · simp only [hpoint, done_bind]
      exact .fail hopening.start_within

theorem tracks_collect {build : CollectionBuilder} {top : Parlance.Activation} (h : Valid w text s)
    (htop : Fits w text top.token) (hclose : close.Within text) (hcontents : contents.length ≤ 1)
    (hkind : w.grammar.kind top.rule = .collectionBracket build) :
    Tracks text (ParseState.onText text) (Valid w text)
      ((s.onText text).collect w build (top.onText text) (contents.map (Operand.onText text)) ⟨text, close⟩)
      (s.applyContents w.grammar top contents close) := by
  have hopening := htop.covers.within
  have htext : w.textFor (top.onText text).token = .done top.token.text := htop.textFor
  have hhead : ((contents.map (Operand.onText text)).head?.map Operand.expr) =
      contents.head?.map Parlance.Operand.expr := by
    cases contents <;> rfl
  have hfew : ∀ x y others, contents ≠ x :: y :: others := by
    rintro x y others rfl
    simp at hcontents
  simp only [State.collect, ParseState.applyContents, hkind, htext, hhead]
  refine (tracks_takeSource h.operands hopening).bind fun ⟨source, rest⟩ ⟨hsource, hrest⟩ => ?_
  have hextent := (hsource.cover hopening).cover hclose
  have hmerge : (source.onText text).span.merge (top.onText text).span =
      .done ⟨text, source.extent.cover top.extent⟩ := Span.merge_over hsource hopening
  have hmerge' : (Span.mk text (source.extent.cover top.extent)).merge ⟨text, close⟩ =
      .done ⟨text, (source.extent.cover top.extent).cover close⟩ :=
    Span.merge_over (hsource.cover hopening) hclose
  have hexpr : (source.onText text).expr = source.expr := rfl
  simp only [hexpr, hmerge, hmerge', done_bind]
  split
  · exact .failed (e := ⟨source.extent, .collectionExpected⟩) hsource
  · refine (Tracks.checked hextent _).bind fun expr _ => ?_
    exact .value ⟨List.forall_mem_cons.2 ⟨hextent, hrest⟩, h.operators⟩ rfl

theorem tracks_applyContents {top : Parlance.Activation} (h : Valid w text s)
    (htop : Fits w text top.token) (hclose : close.Within text)
    (hcontents : OperandsWithin text contents) :
    Tracks text (ParseState.onText text) (Valid w text)
      ((s.onText text).applyContents w (top.onText text) (contents.map (Operand.onText text)) ⟨text, close⟩)
      (s.applyContents w.grammar top contents close) := by
  have hopening := htop.covers.within
  have hkind : w.kindAt (top.onText text).rule = .done (w.grammar.kind top.rule) := htop.kindAt
  have hsingle : Tracks text (ParseState.onText text) (Valid w text)
      (do return (s.onText text).pushOperand (← singleContent (contents.map (Operand.onText text))
        (top.onText text).span ⟨text, close⟩))
      (do return s.pushOperand (← Parlance.singleContent contents top.extent close)) :=
    (tracks_singleContent hcontents hopening hclose).bind fun o ho => .value (h.pushOperand ho) rfl
  rw [State.applyContents, hkind, done_bind]
  cases hk : w.grammar.kind top.rule with
  | functionCall overloads =>
    simp only [ParseState.applyContents, hk]
    exact (tracks_callFunction hcontents hopening hclose).bind fun o ho =>
      .value (h.pushOperand ho) rfl
  | collectionBracket build =>
    rcases contents with _ | ⟨x, _ | ⟨other, others⟩⟩
    · have hfew : ([] : List Parlance.Operand).length ≤ 1 := Nat.zero_le 1
      have hcollect := tracks_collect h htop hclose hfew hk
      exact hcollect
    · have hfew : [x].length ≤ 1 := Nat.le_refl 1
      have hcollect := tracks_collect h htop hclose hfew hk
      exact hcollect
    · have hothers := (List.forall_mem_cons.1 hcontents).2
      have hne := List.cons_ne_nil other others
      have hexcess := encompass_over hothers hne
      simp only [ParseState.applyContents, hk]
      simp only [List.map_cons] at hexcess ⊢
      rw [hexcess, done_bind]
      exact .failed (e := ⟨Operand.coverAll (other :: others), .operandUnexpected (some top.extent)⟩)
        (OperandsWithin.coverAll hothers hne)
  | terminal | operand | operator | bracketOpen | bracketClose | listDelimiter
    | collectionAccessor =>
    simp only [ParseState.applyContents, hk]
    exact hsingle

/-- An operand and those below it, with their spans. -/
abbrev overTop (text : String) (p : Parlance.Operand × List Parlance.Operand) :
    Operand × List Operand :=
  (p.1.onText text, p.2.map (Operand.onText text))

theorem takeBetween?_over (a b : Extent) (operands : List Parlance.Operand) :
    takeBetween? ⟨text, a⟩ ⟨text, b⟩ (operands.map (Operand.onText text)) =
      .done ((Parlance.takeBetween? a b operands).map (overTop text)) := by
  cases operands with
  | nil => rfl
  | cons x operands =>
    have hbetween : (x.onText text).span.liesBetween ⟨text, a⟩ ⟨text, b⟩ =
        .done (x.extent.isBetween a b) := Span.liesBetween_over _ _ _
    simp only [List.map_cons, takeBetween?, Parlance.takeBetween?, hbetween, done_bind]
    by_cases hx : x.extent.isBetween a b = true
    · rw [if_pos hx, if_pos hx]
      rfl
    · rw [if_neg hx, if_neg hx]
      rfl

/-- What has been unwound, with its spans. -/
def overUnwound (text : String) (u : Parlance.Unwound) : Unwound :=
  ⟨u.top.onText text, u.contents.map (Operand.onText text), u.operators.map (Activation.onText text),
    u.operands.map (Operand.onText text)⟩

/-- What has been unwound fits a text. -/
structure UnwoundFits (w : Setting) (text : String) (u : Parlance.Unwound) : Prop where
  top : Fits w text u.top.token
  contents : OperandsWithin text u.contents
  operators : WaitsFit w text u.operators
  operands : OperandsWithin text u.operands

theorem tracks_unwind {links : BracketLinks} {previous : Extent} {separated : Bool}
    (hwaits : WaitsFit w text operators) (h : OperandsWithin text operands)
    (hcontents : OperandsWithin text contents) (hclose : close.Within text)
    (hprevious : previous.Within text) :
    Tracks text (overUnwound text) (UnwoundFits w text)
      (unwind w links ⟨text, close⟩ ⟨text, previous⟩ separated (contents.map (Operand.onText text))
        (operators.map (Activation.onText text)) (operands.map (Operand.onText text)))
      (Parlance.unwind w.grammar links close previous separated contents operators operands) := by
  induction operators generalizing operands contents previous separated with
  | nil => exact .fail hclose
  | cons top below ih =>
    obtain ⟨htop, hbelow⟩ := List.forall_mem_cons.1 hwaits
    have hopening : top.extent.Within text := htop.covers.within
    have hrule : (top.onText text).rule = top.rule := rfl
    have hspan : (top.onText text).span = ⟨text, top.extent⟩ := rfl
    simp only [List.map_cons, unwind, Parlance.unwind, hrule, hspan, takeBetween?_over, done_bind,
      Span.gapTo_over hopening hprevious]
    have hmissing {α β : Type} {carry : α → β} {P : α → Prop} : Tracks text carry P
        (Span.fail ⟨text, top.extent.gap previous⟩ (.operandExpected (some top.extent)))
        ((top.extent.gap previous).fail (.operandExpected (some top.extent))) :=
      .fail (hopening.gap hprevious)
    split
    · cases htake : Parlance.takeBetween? top.extent previous operands with
      | none =>
        cases separated with
        | true => exact hmissing
        | false => exact .value ⟨htop, hcontents, hbelow, h⟩ rfl
      | some taken =>
        obtain ⟨hx, hrest⟩ := List.forall_mem_cons.1 (eq_cons_of_takeBetween? htake ▸ h)
        exact .value ⟨htop, List.forall_mem_cons.2 ⟨hx, hcontents⟩, hbelow, hrest⟩ rfl
    split
    · cases htake : Parlance.takeBetween? top.extent previous operands with
      | none => exact hmissing
      | some taken =>
        obtain ⟨hx, hrest⟩ := List.forall_mem_cons.1 (eq_cons_of_takeBetween? htake ▸ h)
        exact ih hbelow hrest (List.forall_mem_cons.2 ⟨hx, hcontents⟩) hopening
    · exact (tracks_reduce htop h).bind fun results hresults =>
        ih hbelow hresults hcontents hprevious

theorem linksAt_eq (hlength : w.grammar.links.length = w.grammar.rules.length)
    (ht : Fits w text t) : w.linksAt t.rule = .done (w.grammar.linksOf t.rule) := by
  obtain ⟨rule, hrule, -⟩ := ht.exists_rule
  obtain ⟨hlt, -⟩ := List.getElem?_eq_some_iff.1 hrule
  have hget : w.grammar.links[t.rule]? = some w.grammar.links[t.rule] :=
    List.getElem?_eq_getElem (hlength ▸ hlt)
  rw [Setting.linksAt, lookup, Grammar.linksOf, hget]
  rfl

theorem tracks_close (hlength : w.grammar.links.length = w.grammar.rules.length)
    (h : Valid w text s) (ht : Fits w text t) :
    Tracks text (ParseState.onText text) (Valid w text) ((s.onText text).close w (t.onText text))
      (s.close w.grammar t) := by
  have hlinks : w.linksAt (t.onText text).rule = .done (w.grammar.linksOf t.rule) :=
    linksAt_eq hlength ht
  have hclose := ht.covers.within
  rw [State.close, hlinks, done_bind]
  have hnone : OperandsWithin text [] := nofun
  refine (tracks_unwind h.operators h.operands hnone hclose hclose).bind fun u hu => ?_
  have hbelow : Valid w text ⟨s.parameters, u.operands, u.operators⟩ := ⟨hu.operands, hu.operators⟩
  exact tracks_applyContents hbelow hu.top hclose hu.contents

/-! ## Tokens -/

theorem started_over (opening : Extent) (operands : List Parlance.Operand) :
    started ⟨text, opening⟩ (operands.map (Operand.onText text)) =
      .done (operands.head?.any (·.extent.rightOf opening)) := by
  cases operands with
  | nil => rfl
  | cons x operands => exact (Span.isAfter_over _ _).trans (by simp)

/-- The source of a collection bracket, and the bracket on top of the operators, with their spans. -/
abbrev overSource (text : String)
    (p : Parlance.Operand × Parlance.Activation × List Parlance.Activation) :
    Operand × Activation × List Activation :=
  (p.1.onText text, p.2.1.onText text, p.2.2.map (Activation.onText text))

theorem tracks_accessorSource (h : Valid w text s) (ht : Fits w text t) :
    Tracks text (overSource text)
      (fun p => p.1.extent.Within text ∧ Fits w text p.2.1.token ∧ WaitsFit w text p.2.2)
      ((s.onText text).accessorSource w (t.onText text)) (s.accessorSource w.grammar t) := by
  have hextent := ht.covers.within
  obtain ⟨parameters, operands, operators⟩ := s
  cases operators with
  | nil => exact .fail hextent
  | cons top below =>
    obtain ⟨htop, hbelow⟩ := List.forall_mem_cons.1 h.operators
    have hopening : top.extent.Within text := htop.covers.within
    have hkind : w.kindAt (top.onText text).rule = .done (w.grammar.kind top.rule) := htop.kindAt
    have hspan : (top.onText text).span = ⟨text, top.extent⟩ := rfl
    have hslot : (top.onText text).slot = top.slot := rfl
    simp only [State.accessorSource, ParseState.accessorSource, ParseState.onText, List.map_cons, hkind,
      hspan, hslot, started_over, done_bind]
    refine .ite (.fail hextent) ?_
    refine (tracks_takeSource h.operands hopening).bind fun p hp => ?_
    exact .value ⟨hp.1, htop, hbelow⟩ rfl

theorem tracks_declareAccessor (h : Valid w text s) (ht : Fits w text t) :
    Tracks text (ParseState.onText text) (Valid w text)
      ((s.onText text).declareAccessor w (t.onText text)) (s.declareAccessor w.grammar t) := by
  have hextent := ht.covers.within
  have hread : (t.onText text).span.read = .done t.text := ht.read
  refine (tracks_accessorSource h ht).bind fun ⟨source, top, below⟩ ⟨hsource, htop, hbelow⟩ => ?_
  have hexpr : (source.onText text).expr = source.expr := rfl
  have hparameters : (s.onText text).parameters = s.parameters := rfl
  simp only [hexpr, hread, hparameters, done_bind]
  cases source.expr.type.element? with
  | none => exact .fail hsource
  | some element =>
    simp only
    split
    · exact .fail hextent
    · refine .value ⟨h.operands, ?_⟩ rfl
      exact List.forall_mem_cons.2 ⟨htop, hbelow⟩

theorem tracks_apply (hlength : w.grammar.links.length = w.grammar.rules.length)
    (h : Valid w text s) (ht : Fits w text t) :
    Tracks text (ParseState.onText text) (Valid w text) ((s.onText text).apply w (t.onText text))
      (s.apply w.grammar t) := by
  have hkind : w.kindAt (t.onText text).rule = .done (w.grammar.kind t.rule) := ht.kindAt
  have htext := ht.textFor
  have hawait {s : ParseState} (hs : Valid w text s) :
      Tracks text (ParseState.onText text) (Valid w text) (pure ((s.onText text).await (t.onText text)))
        (pure (s.await t)) := .value (hs.await ht) rfl
  rw [State.apply, hkind, done_bind]
  cases hk : w.grammar.kind t.rule with
  | terminal =>
    rw [ParseState.apply, hk]
    exact .value h rfl
  | operand build =>
    have hparameters : (s.onText text).parameters = s.parameters := rfl
    simp only [ParseState.apply, hk, htext, hparameters, done_bind]
    refine (Tracks.checked ht.covers.within _).bind fun expr _ => ?_
    exact .value (h.pushOperand ht.covers.within) rfl
  | operator positions precedence build =>
    simp only [ParseState.apply, hk]
    cases precedence with
    | none => exact hawait h
    | some precedence =>
      simp only
      split
      · exact h.foldWhile.bind fun s hs => hawait hs
      · exact hawait h
  | collectionBracket build =>
    simp only [ParseState.apply, hk]
    exact h.foldWhile.bind fun s hs => hawait hs
  | bracketOpen | functionCall | listDelimiter =>
    simp only [ParseState.apply, hk]
    exact hawait h
  | collectionAccessor =>
    simp only [ParseState.apply, hk]
    exact tracks_declareAccessor h ht
  | bracketClose opens delimiter =>
    simp only [ParseState.apply, hk]
    exact tracks_close hlength h ht

/-- Along a run the guards hold. -/
theorem tracks_applyAll (hlength : w.grammar.links.length = w.grammar.rules.length)
    {ts : List Parlance.Token} (h : Valid w text s) (hts : ∀ t ∈ ts, Fits w text t) :
    Tracks text (ParseState.onText text) (Valid w text)
      ((s.onText text).applyAll w (ts.map (Token.onText text))) (s.applyAll w.grammar ts) := by
  induction ts generalizing s with
  | nil => exact .value h rfl
  | cons t ts ih =>
    obtain ⟨ht, hts⟩ := List.forall_mem_cons.1 hts
    exact (tracks_apply hlength h ht).bind fun s' hs' => ih hs' hts

theorem tracks_finish (h : Valid w text s) :
    Tracks text id (fun _ => True) ((s.onText text).finish w text) (s.finish w.grammar) := by
  refine h.foldWhile.bind fun s hs => ?_
  have hzero : (Extent.point 0).Within text := (Extent.Within.whole text).start_within
  obtain ⟨parameters, operands, operators⟩ := s
  match operands, hs.operands with
  | [], _ =>
    simp only [ParseState.onText, List.map_nil, Span.whole, Span.pointAt_over hzero, done_bind]
    exact .fail hzero
  | [x], _ => exact .value trivial rfl
  | x :: y :: others, hoperands => exact .fail (hoperands x List.mem_cons_self)

end Guarded

/-! ## Texts -/

open Pattern (Cursor)

namespace Scanner

variable {s : Scanner} {c d : Cursor} {m : Match}

theorem exists_branch_of_firstMatch? {branches : List Branch} (h : firstMatch? c branches = some m) :
    ∃ b ∈ branches, b.rule = m.rule := by
  induction branches with
  | nil => cases h
  | cons branch branches ih =>
    rw [firstMatch?] at h
    split at h
    · cases h
      exact ⟨branch, List.mem_cons_self, rfl⟩
    · obtain ⟨b, hb, hrule⟩ := ih h
      exact ⟨b, List.mem_cons_of_mem _ hb, hrule⟩

theorem exists_branch_of_firstLongMatch? {branches : List Branch}
    (h : firstLongMatch? c branches = some m) : ∃ b ∈ branches, b.rule = m.rule := by
  induction branches with
  | nil => cases h
  | cons branch branches ih =>
    have hlater (h : firstLongMatch? c branches = some m) : ∃ b ∈ branch :: branches, b.rule = m.rule := by
      obtain ⟨b, hb, hrule⟩ := ih h
      exact ⟨b, List.mem_cons_of_mem _ hb, hrule⟩
    rw [firstLongMatch?] at h
    split at h
    · split at h
      · exact hlater h
      · cases h
        exact ⟨branch, List.mem_cons_self, rfl⟩
    · exact hlater h

theorem exists_branch_of_matchAt? (h : s.matchAt? c = some m) :
    ∃ b ∈ s.branches ++ s.fallbacks, b.rule = m.rule := by
  unfold matchAt? at h
  split at h
  · cases h
  · rename_i m' hm'
    split at h
    · obtain ⟨b, hb, hrule⟩ := exists_branch_of_firstLongMatch? h
      exact ⟨b, List.mem_append_right _ hb, hrule⟩
    · cases h
      obtain ⟨b, hb, hrule⟩ := exists_branch_of_firstMatch? hm'
      exact ⟨b, List.mem_append_left _ hb, hrule⟩

/-- The branches of a scanner are those of its rules. -/
theorem branches_lt_of_make? {rules : List Rule} (made : make? rules = .ok s) :
    ∀ b ∈ s.branches ++ s.fallbacks, b.rule < s.rules.length := by
  obtain ⟨hrules, patterns, hpatterns, hfallbacks⟩ := fallbacks_of_make? made
  obtain ⟨_, -, made'⟩ := bind_eq_ok.1 made
  split at made'
  · cases made'
  · rename_i combined hcombined
    cases made'
    intro b hb
    rcases List.mem_append.1 hb with hb | hb
    · obtain ⟨⟨i, p⟩, hmem, rfl⟩ := List.mem_map.1 hb
      obtain ⟨⟨name, q⟩, -, hfind⟩ := List.mem_filterMap.1 hmem
      obtain ⟨j, hj, hpair⟩ := Option.map_eq_some_iff.1 hfind
      cases hpair
      exact List.mem_range.1 (List.mem_of_find?_eq_some hj)
    · rw [hfallbacks] at hb
      obtain ⟨⟨i, p⟩, hmem, rfl⟩ := List.mem_map.1 hb
      obtain ⟨⟨q, j⟩, hzip, hpair⟩ := List.mem_map.1 hmem
      cases hpair
      have hlt := List.snd_lt_of_mem_zipIdx hzip
      rw [← hpatterns.length_eq] at hlt
      simpa using hlt

/-- Wherever a rule of a scanner matches, its builder may cut the text of the match. -/
def Cuttable (s : Scanner) (cuts : String → String → List Extent) : Prop :=
  ∀ c m, s.matchAt? c = some m → ∃ rule, s.rules[m.rule]? = some rule ∧
    ∀ e ∈ cuts rule.name (textBetween c m.stop), e.Within (textBetween c m.stop)

/-- A builder that cuts nothing may do so. -/
theorem cuttable_of_make? {rules : List Rule} (made : make? rules = .ok s) :
    s.Cuttable fun _ _ => [] := by
  intro c m hm
  obtain ⟨b, hb, hrule⟩ := exists_branch_of_matchAt? hm
  have hlt := branches_lt_of_make? made b hb
  rw [hrule] at hlt
  exact ⟨_, List.getElem?_eq_getElem hlt, nofun⟩

end Scanner

namespace Guarded

open Scanner (Cuttable)

variable {l : Language} {cuts : String → String → List Extent} {c : Cursor}

theorem search?_over (s : Scanner) (hc : (Cursor.start text).Reaches c) :
    search? s text c = .done (s.search? c) := by
  induction hn : c.remaining using Nat.strong_induction_on generalizing c with
  | _ n ih =>
    rw [search?, Scanner.search?]
    cases s.matchAt? c with
    | some m => rfl
    | none =>
      have hrest : (Extent.mk c.offset (Text.byteLength text.toList)).Within text := by
        have hboundary := Scanner.isBoundary_of_reaches hc
        exact ⟨Text.le_of_isBoundary hboundary, hboundary, Text.isBoundary_byteLength _⟩
      simp only [Span.read_over hrest, done_bind]
      cases hnext : c.next? with
      | some next =>
        exact ih next.2.remaining (hn ▸ Cursor.next?_remaining hnext) (hc.next hnext) rfl
      | none => rfl

theorem gapSpan_over {e : Extent} (h : e.Within text) :
    gapSpan text e.start e.stop = .done ⟨text, e⟩ := by
  rw [gapSpan, Span.within_over h, done_bind, Span.read_over h]
  rfl

/-- The tokens and the gap of a scan, with their spans. -/
abbrev overScan (text : String) (scan : Scan) : List Token × Option Span :=
  (scan.tokens.map (Token.onText text), scan.gap?.map (Span.mk text))

/-- The tokens of a scan fit the text, and the gap lies within it. -/
structure ScanFits (w : Setting) (text : String) (scan : Scan) : Prop where
  tokens : ∀ t ∈ scan.tokens, Fits w text t
  gap : ∀ g ∈ scan.gap?, g.Within text

theorem scanFrom_over (cuttable : l.scanner.Cuttable cuts) (hc : (Cursor.start text).Reaches c) :
    scanFrom l.scanner text c = .done (overScan text (l.scanner.scanFrom c)) ∧
      ScanFits ⟨l.grammar, cuts⟩ text (l.scanner.scanFrom c) := by
  induction hn : c.remaining using Nat.strong_induction_on generalizing c with
  | _ n ih =>
    rw [scanFrom, Scanner.scanFrom, search?_over _ hc, done_bind]
    cases hsearch : l.scanner.search? c with
    | none =>
      have hgap : (Extent.mk c.offset (c.offset + Text.byteLength c.rest)).Within text := by
        have hboundary := Scanner.isBoundary_of_reaches hc
        have hstop := hc.offset_add_byteLength
        refine ⟨Nat.le_add_right _ _, hboundary, ?_⟩
        rw [hstop, show (Cursor.start text).offset = 0 from rfl, Nat.zero_add]
        exact Text.isBoundary_byteLength _
      have hspan := gapSpan_over hgap
      by_cases hrest : c.rest.isEmpty = true
      · simp only [hrest, if_true]
        exact ⟨rfl, nofun, nofun⟩
      · simp only [hrest, hspan, done_bind]
        refine ⟨rfl, nofun, fun g hg => ?_⟩
        cases hg
        exact hgap
    | some found =>
      obtain ⟨start, m⟩ := found
      obtain ⟨hstart, hstop⟩ := Scanner.reaches_of_search? hsearch
      have hmatch := (Scanner.search?_eq_some hsearch).1
      simp only
      by_cases hoffset : c.offset < start.offset
      · have hgap : (Extent.mk c.offset start.offset).Within text :=
          ⟨hoffset.le, Scanner.isBoundary_of_reaches hc, Scanner.isBoundary_of_reaches (hc.trans hstart)⟩
        have hspan := gapSpan_over hgap
        simp only [if_pos hoffset, hspan, done_bind]
        refine ⟨rfl, nofun, fun g hg => ?_⟩
        cases hg
        exact hgap
      · obtain rfl := hstart.eq_of_offset_le (Nat.le_of_not_lt hoffset)
        simp only [if_neg hoffset]
        by_cases hlt : m.stop.remaining < start.remaining
        · obtain ⟨rule, hrule, hcuts⟩ := cuttable start m hmatch
          obtain ⟨hrest, htokens, hgap⟩ := ih m.stop.remaining (hn ▸ hlt) (hc.trans hstop) rfl
          have hcovers := Scanner.covers_of_reaches hc hstop m.rule
          have hspan := Span.within_over hcovers.within
          have hlookup : lookup l.scanner.rules m.rule = .done rule := by rw [lookup, hrule]
          simp only [dif_pos hlt, hlookup, done_bind, hrest, hrule, Option.any_some]
          cases rule.ignored with
          | true => exact ⟨rfl, htokens, hgap⟩
          | false =>
            simp only [hspan, done_bind]
            refine ⟨rfl, List.forall_mem_cons.2 ⟨⟨hcovers, rule, hrule, hcuts⟩, htokens⟩, hgap⟩
        · simp only [dif_neg hlt]
          exact ⟨rfl, nofun, nofun⟩

/-- The guards of a parse hold if the builders may cut what they cut. -/
theorem tracks_parse (cuttable : l.scanner.Cuttable cuts)
    (hlength : l.links.length = l.scanner.rules.length) (text : String) (parameters : List Parameter) :
    Tracks text id (fun _ => True) (parse l cuts text parameters) (l.parse text parameters) := by
  obtain ⟨hscan, htokens, hgap⟩ := scanFrom_over cuttable (.refl : (Cursor.start text).Reaches _)
  have hstart : Valid ⟨l.grammar, cuts⟩ text (ParseState.start parameters) := ⟨nofun, nofun⟩
  rw [parse, hscan, done_bind]
  refine (tracks_applyAll hlength hstart htokens).bind fun s hs => ?_
  unfold Language.afterScan Scanner.scan
  cases hg : (l.scanner.scanFrom (Cursor.start text)).gap? with
  | none => exact tracks_finish hs
  | some gap =>
    exact .failed (e := ⟨gap, .unexpectedToken⟩) (hgap gap hg)

end Guarded

/-- A language has a scanner for its rules and links for each of them. -/
theorem scanner_of_make? {rules : List Rule} {l : Language} (made : Language.make? rules = .ok l) :
    Scanner.make? rules = .ok l.scanner ∧ l.scanner.rules = rules ∧
      l.links.length = l.scanner.rules.length := by
  obtain ⟨hrules, -, hlinks⟩ := of_make? made
  obtain ⟨scanner, hscanner, made⟩ := bind_eq_ok.1 made
  obtain ⟨links, -, made⟩ := bind_eq_ok.1 made
  cases made
  have hrules : scanner.rules = rules := hrules
  refine ⟨hscanner, hrules, ?_⟩
  rw [hrules]
  exact (mapM_eq_ok.1 hlinks).length_eq.symm

end Parlance
