import Parlance.Proofs.Blame

/-!
# Labels

The labels of a parse error stand in the text: each starts between two characters and ends within the
text, and only one at the end has no width (`Label.Stands`). The first one starts where the error's
segment does, the other is on an operator. A label on an empty segment is one byte wide, and so it does
not end between two characters where a character of several bytes follows (`Extent.Splits`). It is only
there that a label fails to cover whole characters, and only for an operand or arguments that are missing
(`labels_stand`).
-/

namespace Parlance

/-! ## Places between characters -/

namespace Text

/-- One byte is a whole character only if that takes no more. -/
theorem isBoundary_one {c : Char} {cs : List Char} :
    isBoundary (c :: cs) 1 = true ↔ ¬ 1 < c.utf8Size := by
  have hpos := c.utf8Size_pos
  constructor
  · intro h
    simp only [isBoundary, Bool.or_eq_true, Bool.and_eq_true, decide_eq_true_eq] at h
    rcases h with h | ⟨h, -⟩
    · cases h
    · omega
  · intro h
    have hone : c.utf8Size = 1 := by omega
    simp [isBoundary, hone, isBoundary_zero]

end Text

/-! ## Labels on extents -/

/-- A label starts between two characters of a text, ends within the text, and has a width unless it is
at the end. -/
structure Label.Stands (text : String) (label : Label) : Prop where
  start_boundary : Text.isBoundary text.toList label.offset = true
  bounded : label.offset + label.length ≤ Text.byteLength text.toList
  visible : label.length = 0 → label.offset = Text.byteLength text.toList

/-- A label ends between two characters of a text. -/
def Label.Whole (text : String) (label : Label) : Prop :=
  Text.isBoundary text.toList (label.offset + label.length) = true

/-- An empty extent in front of a character of several bytes. -/
def Extent.Splits (e : Extent) (text : String) : Prop :=
  e.isEmpty = true ∧ ∃ c ∈ (Text.dropBytes e.start text.toList).head?, 1 < c.utf8Size

variable {text remark : String} {e : Extent}

theorem Extent.isEmpty_iff : e.isEmpty = true ↔ e.start = e.stop := by simp [Extent.isEmpty]

theorem Extent.Filled.not_splits (h : e.Filled) : ¬ e.Splits text := by
  rintro ⟨hempty, -⟩
  exact h.ne (Extent.isEmpty_iff.1 hempty)

namespace Label

/-- The label of an extent that is widened. -/
theorem ofExtent_empty {size : Nat} (hempty : e.isEmpty = true) (hlt : e.start < size) :
    ofExtent remark size e = ⟨remark, e.start, 1⟩ := by
  simp [ofExtent, hempty, hlt]

/-- The label of an extent that is not. -/
theorem ofExtent_of_not {size : Nat} (h : ¬ (e.isEmpty = true ∧ e.start < size)) :
    ofExtent remark size e = ⟨remark, e.start, e.length⟩ := by
  simp only [ofExtent, Bool.and_eq_true, decide_eq_true_eq, if_neg h]

theorem stands_ofExtent (h : e.Within text) :
    (ofExtent remark (Text.byteLength text.toList) e).Stands text := by
  have hstop := h.stop_le
  have hordered := h.1
  by_cases hwide : e.isEmpty = true ∧ e.start < Text.byteLength text.toList
  · rw [ofExtent_empty hwide.1 hwide.2]
    exact ⟨h.2.1, hwide.2, nofun⟩
  · rw [ofExtent_of_not hwide]
    refine ⟨h.2.1, ?_, fun hlength => ?_⟩
    · simp only [Extent.length]
      omega
    · have hempty : e.start = e.stop := by
        simp only [Extent.length] at hlength
        omega
      have hend : ¬ e.start < Text.byteLength text.toList :=
        fun hlt => hwide ⟨Extent.isEmpty_iff.2 hempty, hlt⟩
      show e.start = _
      omega

/-- The label on an extent of a text fails to end between two characters exactly if it is widened into a
character of several bytes. -/
theorem whole_ofExtent_iff (h : e.Within text) :
    (ofExtent remark (Text.byteLength text.toList) e).Whole text ↔ ¬ e.Splits text := by
  obtain ⟨before, after, htext, hstart⟩ := Text.exists_of_isBoundary h.2.1
  have hdrop : Text.dropBytes e.start text.toList = after := by
    rw [hstart, htext, Text.dropBytes_append]
  by_cases hwide : e.isEmpty = true ∧ e.start < Text.byteLength text.toList
  · rw [ofExtent_empty hwide.1 hwide.2, Whole, Extent.Splits, hdrop]
    cases after with
    | nil =>
      have hlt := hwide.2
      rw [htext, List.append_nil] at hlt
      omega
    | cons c after =>
      rw [htext, hstart, Text.isBoundary_append_add, Text.isBoundary_one]
      simp [hwide.1]
  · have hstop : e.start + e.length = e.stop := Nat.add_sub_cancel' h.1
    rw [ofExtent_of_not hwide, Whole, hstop]
    refine ⟨fun _ => ?_, fun _ => h.2.2⟩
    rintro ⟨hempty, c, hc, -⟩
    refine hwide ⟨hempty, ?_⟩
    rw [hdrop] at hc
    rw [htext, Text.byteLength_append, hstart]
    exact Nat.lt_add_of_pos_right (Text.byteLength_pos (List.ne_nil_of_mem (List.mem_of_head? hc)))

end Label

/-! ## Labels of errors -/

variable {error : ParseError}

/-- The segment of an error lies between characters of a text and holds bytes unless something is
missing, and its operator lies between characters of the text and holds bytes. -/
structure ParseError.Located (text : String) (e : ParseError) : Prop where
  within : e.extent.Within text
  filled : e.fault.isLack = true ∨ e.extent.Filled
  operator : ∀ op ∈ e.operator?, op.Within text ∧ op.Filled

/-- How the labels of an error stand in a text. The first one starts where the segment does, those after
it cover whole characters, and all do unless the segment is an empty one in front of a character of
several bytes, where an operand or all arguments are missing. -/
structure ParseError.Labelled (text : String) (e : ParseError) : Prop where
  first : (e.diagnostic text).labels.head?.map Label.offset = some e.extent.start
  stand : ∀ label ∈ (e.diagnostic text).labels, label.Stands text
  whole_iff : (∀ label ∈ (e.diagnostic text).labels, label.Whole text) ↔ ¬ e.extent.Splits text
  others : ∀ label ∈ (e.diagnostic text).labels.tail, label.Whole text
  lacking : e.extent.Splits text → e.fault.isLack = true

theorem ParseError.labels_tail {label : Label} (h : label ∈ (error.labels text).tail) :
    ∃ op ∈ error.operator?,
      label = .ofExtent "while applying this" (Text.byteLength text.toList) op := by
  obtain ⟨op, hop, rfl⟩ := Option.map_eq_some_iff.1 (Option.mem_toList.1 h)
  exact ⟨op, (Option.filter_eq_some_iff.1 hop).1, rfl⟩

theorem ParseError.Located.labelled (h : error.Located text) : error.Labelled text := by
  have hothers : ∀ label ∈ (error.labels text).tail, label.Stands text ∧ label.Whole text := by
    intro label hlabel
    obtain ⟨op, hop, rfl⟩ := ParseError.labels_tail hlabel
    obtain ⟨hwithin, hfilled⟩ := h.operator op hop
    exact ⟨Label.stands_ofExtent hwithin, (Label.whole_ofExtent_iff hwithin).2 hfilled.not_splits⟩
  have hwhole := @Label.whole_ofExtent_iff text error.remark _ h.within
  refine ⟨rfl, ?_, ?_, fun label hlabel => (hothers label hlabel).2, fun hsplits => ?_⟩
  · exact List.forall_mem_cons.2
      ⟨Label.stands_ofExtent h.within, fun label hlabel => (hothers label hlabel).1⟩
  · refine ⟨fun hall => hwhole.1 (hall _ List.mem_cons_self), fun hsplits => ?_⟩
    exact List.forall_mem_cons.2 ⟨hwhole.2 hsplits, fun label hlabel => (hothers label hlabel).2⟩
  · exact h.filled.resolve_right fun hfilled => hfilled.not_splits hsplits

/-! ## Labels of texts -/

/-- The tokens of a text and what no rule matches lie between characters. -/
theorem scan_within {rules : List Rule} {s : Scanner} (made : Scanner.make? rules = .ok s)
    (text : String) : (∀ t ∈ (s.scan text).tokens, t.extent.Within text) ∧
      ∀ gap ∈ (s.scan text).gap?, gap.Within text := by
  obtain ⟨-, htokens, hgap⟩ := Guarded.scanFrom_over (l := ⟨s, []⟩) (Scanner.cuttable_of_make? made)
    (.refl : (Pattern.Cursor.start text).Reaches _)
  exact ⟨fun t ht => (htokens t ht).covers.within, hgap⟩

theorem located_of_founded {rules : List Rule} {s : Scanner} (made : Scanner.make? rules = .ok s)
    (hinside : error.Inside text) (h : error.Founded (s.scan text).tokens) : error.Located text := by
  refine ⟨⟨hinside.ordered, hinside.start_boundary, hinside.stop_boundary⟩, h.filled, fun op hop => ?_⟩
  obtain ⟨t, ht, rfl⟩ := h.operator op hop
  exact ⟨(scan_within made text).1 t ht, s.filled_tokens text t ht⟩

theorem inside_of_afterScan {rules : List Rule} {s : Scanner} (made : Scanner.make? rules = .ok s)
    (h : Language.afterScan (s.scan text) = .error error) : error.Inside text := by
  unfold Language.afterScan at h
  split at h
  · rename_i gap hgap
    cases h
    exact ParseError.inside_of_within ((scan_within made text).2 gap hgap)
  · cases h

/-- An error is told by its labels. -/
theorem exists_of_labels {r : Except ParseError Expr} {labels : List Label}
    (h : (r.map fun _ => ()).mapError (fun e => (e.diagnostic text).labels) = .error labels) :
    ∃ e, r = .error e ∧ (e.diagnostic text).labels = labels := by
  cases r with
  | ok body => cases h
  | error e => exact ⟨e, rfl, Except.error.inj h⟩

/-- The labels of an error stand in the text that it is about, whether the text is only cut into tokens
or is parsed, in any language or as a formula or a filter; and they cover whole characters unless the
segment is empty and a character of several bytes follows, as it may be where an operand or all
arguments are missing. -/
theorem labels_stand (text : String) :
    (∀ rules s, Scanner.make? rules = .ok s → ∀ e,
      Language.afterScan (s.scan text) = .error e → e.Labelled text) ∧
    (∀ rules l, Language.make? rules = .ok l → ∀ parameters e,
      l.parse text parameters = .error e → e.Labelled text) ∧
    (∀ parameters e, Arithmetic.compile text parameters = .error e → e.Labelled text) ∧
    (∀ record e, Filter.parse text record = .error e → e.Labelled text) := by
  refine ⟨fun rules s made e h => ?_, fun rules l made parameters e h => ?_,
    fun parameters e h => ?_, fun record e h => ?_⟩
  · have hfounded : e.Founded (s.scan text).tokens := (yields_afterScan s text).founded h
    exact (located_of_founded made (inside_of_afterScan made h) hfounded).labelled
  · have hfounded := (yields_parse l text parameters).founded h
    have hinside := (guarded_of_made made text parameters).inside e h
    exact (located_of_founded (scanner_of_make? made).1 hinside hfounded).labelled
  · have made := (scanner_of_make? (make?_eq_ofRules Arithmetic.rules_fit)).1
    have hfounded := Arithmetic.founded_of_compile h
    exact (located_of_founded made (Arithmetic.inside_of_compile h) hfounded).labelled
  · have made := (scanner_of_make? (make?_eq_ofRules Filter.rules_fit)).1
    have hfounded := Filter.founded_of_parse h
    exact (located_of_founded made (Filter.inside_of_parse h) hfounded).labelled

set_option maxRecDepth 100000 in
/-- A sum in brackets that misses its last operand: the label on the bracket behind it is widened. -/
theorem labels_stand_sum :
    ∃ l e, Language.make? sumRules = .ok l ∧ l.parse "(1+)" [] = .error e ∧ e.Labelled "(1+)" ∧
      (e.diagnostic "(1+)").labels =
        [⟨"operand expected here", 3, 1⟩, ⟨"while applying this", 2, 1⟩] := by
  have made := make?_eq_ofRules sumRules_fit
  obtain ⟨e, he, hlabels⟩ : ∃ e, (Language.ofRules sumRules sumRules_fit).parse "(1+)" [] = .error e ∧
      (e.diagnostic "(1+)").labels =
        [⟨"operand expected here", 3, 1⟩, ⟨"while applying this", 2, 1⟩] :=
    exists_of_labels (by decide +kernel)
  exact ⟨_, e, made, he, (labels_stand "(1+)").2.1 sumRules _ made [] e he, hlabels⟩

/-- Rules for numbers with an operator of two bytes between them. -/
def productRules : List Rule :=
  [.operand "NUMBER" "[0-9]+" fun _ => .ok .null,
    .operator "TIMES" "×" (some 1) [.left, .right] fun _ => .ok .null]

set_option maxRecDepth 100000 in
theorem productRules_fit : (Language.make? productRules).toOption.isSome = true := by decide +kernel

set_option maxRecDepth 100000 in
/-- A product that misses its first operand: the label in front of the operator ends within it. -/
theorem not_whole_product :
    ∃ l e, Language.make? productRules = .ok l ∧ l.parse "×2" [] = .error e ∧
      ∃ label ∈ (e.diagnostic "×2").labels, ¬ label.Whole "×2" := by
  obtain ⟨e, he, hlabels⟩ : ∃ e,
      (Language.ofRules productRules productRules_fit).parse "×2" [] = .error e ∧
        (e.diagnostic "×2").labels =
          [⟨"operand expected here", 0, 1⟩, ⟨"while applying this", 0, 2⟩] :=
    exists_of_labels (by decide +kernel)
  refine ⟨_, e, make?_eq_ofRules productRules_fit, he, ⟨"operand expected here", 0, 1⟩, ?_, ?_⟩
  · rw [hlabels]
    exact List.mem_cons_self
  · show ¬ Text.isBoundary "×2".toList 1 = true
    decide

end Parlance
