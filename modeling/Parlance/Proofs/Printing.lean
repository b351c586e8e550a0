import Parlance.Proofs.Numerals
import Parlance.Proofs.Spacing

/-!
# Printed formulas read back

The text of a tree of decimals and operations on them has every operation in brackets, so what stands
for an operand in it is taken as one operand whatever waits below (`ReadsAs`). Tokens are cut as they
have been printed: a minus in front of digits is a sign, for that of a subtraction has a blank behind it.
A tree is so read back from its text, with its constants in normal form.
-/

namespace Parlance

/-! ## An operation in brackets -/

section

variable {g : Grammar} {opening o close : Token} {left right : Operand} {precedence : Int}
  {build : OperatorBuilder} {expr : Expr}

/-- The tokens of an operation in brackets and its operands, from left to right. -/
structure InBrackets (opening : Token) (left : Operand) (o : Token) (right : Operand) (close : Token) : Prop where
  order : [opening.extent.start, opening.extent.stop, left.extent.start, left.extent.stop,
    o.extent.start, o.extent.stop, right.extent.start, right.extent.stop, close.extent.start,
    close.extent.stop].IsChain (· ≤ ·)
  width : o.extent.start < o.extent.stop

/-- An operator behind a bracket waits with the bracket below it, which ends what the operator folds. -/
theorem apply_operator_of_open (opens : g.IsOpen opening)
    (operator : g.kind o.rule = .operator [.left, .right] (some precedence) build) (s : ParseState) :
    ((s.await opening).pushOperand left).apply g o = .ok (((s.await opening).pushOperand left).await o) := by
  have hopen : g.kind opening.rule = .bracketOpen := opens
  have hfold : foldWhile g (yieldsTo precedence) (⟨opening, none⟩ :: s.operators)
      (left :: s.operands) = .ok (⟨opening, none⟩ :: s.operators, left :: s.operands) := by
    rw [foldWhile, hopen]
    rfl
  rw [ParseState.apply, operator]
  refine bind_eq_ok.2 ⟨(s.await opening).pushOperand left, ?_, rfl⟩
  exact bind_eq_ok.2 ⟨_, hfold, rfl⟩

/-- Behind a bracket an operator takes the operand on either side. -/
theorem reduce_of_inBrackets (brackets : InBrackets opening left o right close)
    (operator : g.kind o.rule = .operator [.left, .right] (some precedence) build)
    (built : build o.text [left.expr, right.expr] = .ok expr) (operators : List Activation)
    (operands : List Operand) :
    reduce g ⟨o, none⟩ (⟨opening, none⟩ :: operators) (right :: left :: operands) =
      .ok (⟨expr, ⟨left.extent.start, right.extent.stop⟩⟩ :: operands) := by
  obtain ⟨order, width⟩ := brackets
  simp only [List.isChain_cons_cons, List.isChain_singleton, and_true] at order
  have hcover : o.extent.coverAll [left.extent, right.extent] =
      ⟨left.extent.start, right.extent.stop⟩ := by
    simp only [Extent.coverAll, List.foldl_cons, List.foldl_nil, Extent.cover, Extent.mk.injEq]
    omega
  have hsplit : Split Operand.extent o.extent [.left, .right] opening.extent.stop
      (right :: left :: operands) [left] [right] operands :=
    ⟨rfl, rfl, rfl, by simpa using order.2.2.2.2.2.1, by simp; omega, by simpa using order.2.1⟩
  rw [← hcover]
  exact reduce_eq_ok.2 (@Reduced.operation g ⟨o, none⟩ (⟨opening, none⟩ :: operators) _ _ _ _ [left]
    [right] operands expr operator hsplit built)

/-- A close bracket folds the operator before it, and takes what that leaves behind its bracket. -/
theorem unwind_of_inBrackets (linked : g.Linked) (brackets : InBrackets opening left o right close)
    (operator : g.kind o.rule = .operator [.left, .right] (some precedence) build)
    (closes : g.Closes close opening) (built : build o.text [left.expr, right.expr] = .ok expr)
    (operators : List Activation) (operands : List Operand) :
    unwind g (g.linksOf close.rule) close.extent close.extent false []
      (⟨o, none⟩ :: ⟨opening, none⟩ :: operators) (right :: left :: operands) =
      .ok ⟨⟨opening, none⟩, [⟨expr, ⟨left.extent.start, right.extent.stop⟩⟩], operators,
        operands⟩ := by
  obtain ⟨names, delimiter, hclose, -⟩ := id closes
  have hopens : (g.linksOf close.rule).opens.contains o.rule = false := by
    refine Bool.eq_false_iff.2 fun h => ?_
    have hopen := linked.isOpen ((linked.closes hclose).1 h)
    rw [operator] at hopen
    cases hopen
  have hdelimiter : (g.linksOf close.rule).delimiter ≠ some o.rule := fun h => by
    have hdelimiter := linked.isDelimiter ((linked.separates hclose).1 h)
    rw [operator] at hdelimiter
    cases hdelimiter
  have hbetween : (⟨left.extent.start, right.extent.stop⟩ : Extent).isBetween opening.extent
      close.extent = true := by
    have order := brackets.order
    simp only [List.isChain_cons_cons, List.isChain_singleton, and_true] at order
    simp only [Extent.isBetween, Bool.and_eq_true, decide_eq_true_eq]
    omega
  rw [unwind, hopens, if_neg Bool.false_ne_true, if_neg hdelimiter]
  refine bind_eq_ok.2 ⟨_, reduce_of_inBrackets brackets operator built _ _, ?_⟩
  rw [unwind, if_pos ((linked.closes hclose).2 closes), takeBetween?, if_pos hbetween]

/-- An operation in brackets is taken as one operand if its operands are, whatever is on the stacks. -/
theorem applyAll_of_inBrackets {ts us : List Token} (linked : g.Linked)
    (brackets : InBrackets opening left o right close) (opens : g.IsOpen opening)
    (operator : g.kind o.rule = .operator [.left, .right] (some precedence) build)
    (closes : g.Closes close opening) (built : build o.text [left.expr, right.expr] = .ok expr)
    (runLeft : ∀ s : ParseState, s.applyAll g ts = .ok (s.pushOperand left))
    (runRight : ∀ s : ParseState, s.applyAll g us = .ok (s.pushOperand right)) (s : ParseState) :
    s.applyAll g (opening :: (ts ++ o :: (us ++ [close]))) =
      .ok (s.pushOperand ⟨expr, ⟨opening.extent.start, close.extent.stop⟩⟩) := by
  obtain ⟨names, delimiter, hclose, -⟩ := id closes
  have hopen : g.kind opening.rule = .bracketOpen := opens
  have happly : s.apply g opening = .ok (s.await opening) := by
    rw [ParseState.apply, hopen]
  have hcontents : ParseState.applyContents g ⟨s.parameters, s.operands, s.operators⟩ ⟨opening, none⟩
      [⟨expr, ⟨left.extent.start, right.extent.stop⟩⟩] close.extent =
      .ok (s.pushOperand ⟨expr, ⟨opening.extent.start, close.extent.stop⟩⟩) := by
    have hcover : (opening.extent.cover ⟨left.extent.start, right.extent.stop⟩).cover close.extent =
        ⟨opening.extent.start, close.extent.stop⟩ := by
      have order := brackets.order
      simp only [List.isChain_cons_cons, List.isChain_singleton, and_true] at order
      simp only [Extent.cover, Extent.mk.injEq]
      omega
    rw [ParseState.applyContents, hopen, ← hcover]
    rfl
  rw [applyAll_cons, happly]
  refine bind_eq_ok.2 ⟨_, rfl, ?_⟩
  rw [applyAll_append, runLeft]
  refine bind_eq_ok.2 ⟨_, rfl, ?_⟩
  rw [applyAll_cons, apply_operator_of_open opens operator]
  refine bind_eq_ok.2 ⟨_, rfl, ?_⟩
  rw [applyAll_append, runRight]
  refine bind_eq_ok.2 ⟨_, rfl, ?_⟩
  rw [applyAll_cons, ParseState.apply, hclose]
  have hunwind := unwind_of_inBrackets linked brackets operator closes built s.operators s.operands
  exact bind_eq_ok.2 ⟨_, bind_eq_ok.2 ⟨_, hunwind, hcontents⟩, rfl⟩

end

/-! ## Trees of decimals -/

namespace Expr

/-- The type of decimals. -/
abbrev decimalType : ValueType := .number .decimal

/-- Trees of decimal constants and of arithmetic operations on such trees. -/
inductive Decimals : Expr → Prop
  | constant (d : Decimal) : Decimals (ofValue (.ofDecimal d))
  | operation {op : BinaryOp} {left right e : Expr} (arithmetic : op.isArithmetic = true)
      (left_decimals : Decimals left) (right_decimals : Decimals right)
      (built : binary? op left right = .ok e) : Decimals e

variable {op : BinaryOp} {left right e : Expr}

theorem binary?_decimals (arithmetic : op.isArithmetic = true) (hleft : left.type = decimalType)
    (hright : right.type = decimalType) :
    binary? op left right = .ok (.binary op left right decimalType) := by
  have htype : binaryType? op left.type = some decimalType := by
    rw [binaryType?, if_pos arithmetic, hleft]
    rfl
  rw [binary?, if_pos (hleft.trans hright.symm), htype]

theorem Decimals.type_eq (h : e.Decimals) : e.type = decimalType := by
  induction h with
  | constant => rfl
  | operation arithmetic _ _ built hleft hright =>
    rw [binary?_decimals arithmetic hleft hright] at built
    cases built
    rfl

end Expr

namespace Arithmetic

open Pattern (isDecimalDigit)

/-! ## Tokens of numerals -/

section

variable {x cs ds tail : List Char} {z : Char} {previous : Option Char}

theorem isDecimalDigit_of_isDigit (h : z.isDigit = true) : isDecimalDigit z = true := by
  have hlt : z.toNat < 128 := by
    simp only [Char.isDigit, Bool.and_eq_true, decide_eq_true_eq] at h
    have : z.toNat ≤ 57 := UInt32.le_iff_toNat_le.1 h.2
    omega
  rw [isDecimalDigit, if_pos hlt, h]

theorem digitsLength_of_digits (h : ∀ c ∈ ds, c.isDigit = true) : digitsLength ds = ds.length := by
  rw [digitsLength, List.takeWhile_eq_self_iff.2 fun c hc => isDecimalDigit_of_isDigit (h c hc)]

theorem wholeLength_of_digits (h : ∀ c ∈ ds, c.isDigit = true) :
    wholeLength (ds ++ cs) = ds.length + wholeLength cs := by
  induction ds with
  | nil => simp
  | cons c ds ih =>
    obtain ⟨hc, hds⟩ := List.forall_mem_cons.1 h
    rw [List.cons_append, wholeLength, if_pos (isDecimalDigit_of_isDigit hc), ih hds, List.length_cons]
    omega

theorem wholeLength_of_numeral (h : Decimal.Numeral x) : wholeLength x = x.length := by
  cases h with
  | whole _ digits =>
    have : wholeLength (x ++ []) = x.length + wholeLength [] := wholeLength_of_digits digits
    rwa [List.append_nil, wholeLength] at this
  | @fraction ds fs _ digits places digits' =>
    have hplaces : 0 < digitsLength fs := by
      rw [digitsLength_of_digits digits']
      exact List.length_pos_iff.2 places
    rw [wholeLength_of_digits digits, wholeLength, if_neg (by decide), if_pos ⟨rfl, hplaces⟩,
      digitsLength_of_digits digits', List.length_append, List.length_cons]

theorem unsignedLength_of_numeral (h : Decimal.Numeral x) : unsignedLength x = some x.length := by
  have hlength := wholeLength_of_numeral h
  obtain ⟨c, rest, rfl, hc⟩ := Decimal.head_of_numeral h
  rw [unsignedLength, digitsLength_cons, if_pos (isDecimalDigit_of_isDigit hc), if_pos (Nat.succ_pos _),
    hlength]

theorem last_of_numeral (h : Decimal.Numeral x) : ∃ y, x.getLast? = some y ∧ y.isDigit = true := by
  have hlast {ds : List Char} (hds : ds ≠ []) (h : ∀ c ∈ ds, c.isDigit = true) :
      ∃ y, ds.getLast? = some y ∧ y.isDigit = true :=
    ⟨ds.getLast hds, List.getLast?_eq_some_getLast hds, h _ (List.getLast_mem hds)⟩
  cases h with
  | whole nonempty digits => exact hlast nonempty digits
  | @fraction ds fs _ _ places digits' =>
    obtain ⟨y, hy, hdigit⟩ := hlast places digits'
    refine ⟨y, ?_, hdigit⟩
    rw [List.getLast?_append, List.getLast?_cons, hy]
    rfl

/-- The numeral of a number is one token before a stop. -/
theorem firstLength_printExact (d : Decimal) (previous : Option Char) (stop : tail.head?.all isStop = true) :
    firstLength lengths previous (d.printExact.toList ++ tail) = some (0, d.printExact.toList.length) := by
  have hnumeral := Decimal.numeral_positional d.coefficient d.scale
  obtain ⟨y, hlast, hy⟩ := last_of_numeral hnumeral
  rw [Decimal.toList_printExact]
  generalize Decimal.positional d.coefficient d.scale = cs at hnumeral hlast
  have hlast' : ((if d.negative then ['-'] else []) ++ cs).getLast? = some y := by
    rw [List.getLast?_append, hlast, Option.some_or]
  have hnumber : numberLength previous ((if d.negative then ['-'] else []) ++ cs) =
      some ((if d.negative then ['-'] else []) ++ cs).length := by
    cases d.negative with
    | true => exact congrArg (Option.map (· + 1)) (unsignedLength_of_numeral hnumeral)
    | false =>
      have hunsigned := unsignedLength_of_numeral hnumeral
      obtain ⟨c, rest, rfl, hc⟩ := Decimal.head_of_numeral hnumeral
      have hne : c ≠ '-' := by
        rintro rfl
        cases hc
      exact (if_neg hne).trans hunsigned
  have apart : Apart y tail := .word (by simp [isWordy, isDecimalDigit_of_isDigit hy]) stop
  have hfirst := (apart.numberLength_append hlast' previous).trans hnumber
  simp only [lengths, List.cons_append, firstLength, hfirst]

/-! ## Tokens of marks -/

theorem numberLength_of_mark (hz : isDecimalDigit z = false)
    (minus : z = '-' → tail.head?.any isDecimalDigit = false) : numberLength previous (z :: tail) = none := by
  rw [numberLength]
  split
  · rename_i heq
    cases tail with
    | nil => rfl
    | cons w tail =>
      have hw : isDecimalDigit w = false := minus heq
      rw [unsignedLength_cons, hw]
      rfl
  · rw [unsignedLength_cons, hz]
    rfl

/-- A mark is one token if it starts no token of the rules before its own. -/
theorem firstLength_mark {place : Nat} (mark : rows[place]? = some [[z]])
    (before : ∀ row ∈ piRow :: rows.take place, row.head?.all (·.contains z) = false)
    (hz : isDecimalDigit z = false) (minus : z = '-' → tail.head?.any isDecimalDigit = false) :
    firstLength lengths previous ([z] ++ tail) = some (place + 2, 1) := by
  obtain ⟨hplace, hget⟩ := List.getElem?_eq_some_iff.1 mark
  have hrows : rows = rows.take place ++ [[z]] :: rows.drop (place + 1) := by
    rw [← hget, List.getElem_cons_drop, List.take_append_drop]
  have hlengths : lengths = (numberLength :: piLength :: (rows.take place).map rowLength) ++
      rowLength [[z]] :: ((rows.drop (place + 1)).map rowLength ++ [pathLength, blankLength]) := by
    rw [lengths]
    conv_lhs => rw [hrows]
    simp
  have hnone : ∀ l ∈ numberLength :: piLength :: (rows.take place).map rowLength,
      l previous (z :: tail) = none := by
    obtain ⟨hpi, hbefore⟩ := List.forall_mem_cons.1 before
    simp only [List.forall_mem_cons, List.forall_mem_map]
    refine ⟨numberLength_of_mark hz minus, ?_, fun row hrow => ?_⟩
    · simp [piLength, not_inRow_of_head hpi]
    · simp [rowLength, not_inRow_of_head (hbefore row hrow)]
  have hmark : rowLength [[z]] previous (z :: tail) = some 1 := by
    simp [rowLength, Pattern.inRow]
  rw [List.singleton_append, hlengths, firstLength_append hnone, firstLength, hmark]
  simp only [Option.map_some, List.length_cons, List.length_map, List.length_take, Option.some.injEq,
    Prod.mk.injEq, and_true]
  omega

end

/-! ## Texts of operands -/

theorem made_language : Language.make? rules = .ok language := make?_eq_ofRules rules_fit

theorem dark_of_first {previous : Option Char} {i : Nat} {x tail : List Char}
    (first : firstLength lengths previous (x ++ tail) = some (i, x.length))
    (keeps : (rules[i]?.any (·.ignored)) = false) : x.head?.all Text.isBlank = false := by
  have hpos := (firstLength_pos_le proper_lengths first).1
  cases x with
  | nil => exact absurd hpos (Nat.lt_irrefl 0)
  | cons z x => exact not_blank_of_kept first keeps

/-- Wherever it stands before a stop, a text is cut into tokens that are taken as one operand, whatever is
on the stacks. -/
structure ReadsAs (x : List Char) (e : Expr) : Prop where
  dark : x.head?.all Text.isBlank = false
  reads (offset : Nat) (previous : Option Char) (tail : List Char) (stop : tail.head?.all isStop = true) :
    ∃ found, Lexes lengths offset previous x found tail ∧ ∀ s : ParseState,
      s.applyAll language.grammar (found.filter kept) =
        .ok (s.pushOperand ⟨e, ⟨offset, offset + Text.byteLength x⟩⟩)

theorem kind_language {i : Nat} {rule : Rule} (h : rules[i]? = some rule) :
    language.grammar.kind i = rule.kind := by
  rw [Grammar.kind, (of_make? made_language).1, h]
  rfl

theorem kept_of_rule {t : Token} {rule : Rule} (h : rules[t.rule]? = some rule) :
    kept t = !rule.ignored := by
  rw [kept, h]
  rfl

/-- The text of a decimal is read as its normal form. -/
theorem readsAs_print (d : Decimal) : ReadsAs d.print.toList (.ofValue (.ofDecimal d.normalize)) := by
  have hstop : ([] : List Char).head?.all isStop = true := rfl
  refine ⟨dark_of_first (firstLength_printExact d.normalize none hstop) rfl,
    fun offset previous tail stop =>
      ⟨_, .single (firstLength_printExact d.normalize previous stop), fun s => ?_⟩⟩
  have hkind : language.grammar.kind 0 = .operand fun text _ =>
      Refusal.ofValue ((Number.ofText text .decimal).map fun n => Expr.ofValue (.number n)) :=
    @kind_language 0 _ rfl
  have hbuild : Number.ofText (String.ofList d.print.toList) .decimal = .ok (.decimal d.normalize) := by
    rw [String.ofList_toList, Number.ofText, Number.parse?, Decimal.parse?_print]
    rfl
  rw [List.filter_cons_of_pos rfl, List.filter_nil, applyAll_cons, ParseState.apply, hkind]
  refine bind_eq_ok.2 ⟨_, bind_eq_ok.2 ⟨_, ?_, rfl⟩, rfl⟩
  rw [checked_eq_ok]
  dsimp only
  rw [hbuild]
  rfl

/-! ## Marks of operations -/

/-- The mark of an operation, which starts no token of the rules before the one that builds it. -/
structure Mark (op : BinaryOp) (z : Char) (place : Nat) (rule : Rule) : Prop where
  symbol : op.symbol.toList = [z]
  row : rows[place]? = some [[z]]
  before : ∀ row ∈ piRow :: rows.take place, row.head?.all (·.contains z) = false
  digit : isDecimalDigit z = false
  built : rules[place + 2]? = some rule
  builds : ∃ name pattern precedence, rule = operator name pattern precedence op

theorem exists_mark {op : BinaryOp} (arithmetic : op.isArithmetic = true) :
    ∃ z place rule, Mark op z place rule := by
  cases op with
  | add => exact ⟨'+', 10, _, rfl, rfl, by decide, by decide, rfl, _, _, _, rfl⟩
  | subtract => exact ⟨'-', 11, _, rfl, rfl, by decide, by decide, rfl, _, _, _, rfl⟩
  | multiply => exact ⟨'*', 12, _, rfl, rfl, by decide, by decide, rfl, _, _, _, rfl⟩
  | divide => exact ⟨'/', 13, _, rfl, rfl, by decide, by decide, rfl, _, _, _, rfl⟩
  | modulo => exact ⟨'%', 14, _, rfl, rfl, by decide, by decide, rfl, _, _, _, rfl⟩
  | _ => cases arithmetic

namespace Mark

variable {op : BinaryOp} {z : Char} {place : Nat} {rule : Rule} {t : Token}

theorem firstLength (h : Mark op z place rule) (previous : Option Char) (v : List Char) :
    firstLength lengths previous ([z] ++ (' ' :: v)) = some (place + 2, 1) :=
  firstLength_mark h.row h.before h.digit fun _ => show isDecimalDigit ' ' = false by decide

theorem kept (h : Mark op z place rule) (ht : t.rule = place + 2) : kept t = true := by
  obtain ⟨name, pattern, precedence, rfl⟩ := h.builds
  exact (kept_of_rule (ht ▸ h.built)).trans rfl

theorem dark (h : Mark op z place rule) : [z].head?.all Text.isBlank = false := by
  obtain ⟨name, pattern, precedence, rfl⟩ := h.builds
  exact dark_of_first (h.firstLength none []) (by rw [h.built]; rfl)

/-- The operation is built as it is of operands that are decimals. -/
theorem exists_kind {left right : Expr} (h : Mark op z place rule) (arithmetic : op.isArithmetic = true)
    (typeLeft : left.type = Expr.decimalType) (typeRight : right.type = Expr.decimalType) :
    ∃ precedence build,
      language.grammar.kind (place + 2) = .operator [.left, .right] (some precedence) build ∧
        ∀ text, build text [left, right] = .ok (.binary op left right Expr.decimalType) := by
  obtain ⟨name, pattern, precedence, rfl⟩ := h.builds
  refine ⟨precedence, _, kind_language h.built, fun text => ?_⟩
  have himplicit : Pairing.implicit left right = ⟨true, left, right⟩ :=
    if_pos (typeLeft.trans typeRight.symm)
  show Refusal.ofExpr (Expr.binary? op (Pairing.implicit left right).left
    (Pairing.implicit left right).right) = _
  rw [himplicit, Expr.binary?_decimals arithmetic typeLeft typeRight]
  rfl

end Mark

/-! ## Texts of operations -/

theorem isOpen_language {t : Token} (h : t.rule = 9) : language.grammar.IsOpen t := by
  rw [Grammar.IsOpen, h]
  exact @kind_language 9 _ rfl

theorem closes_language {t u : Token} (h : t.rule = 11) (h' : u.rule = 9) : language.grammar.Closes t u := by
  rw [Grammar.Closes, h]
  refine ⟨_, _, @kind_language 11 _ rfl, "OPEN_BRACKET", List.mem_cons_self, ?_⟩
  rw [Grammar.Named, h', (of_make? made_language).1]
  exact ⟨_, rfl, rfl⟩

/-- A blank before a text that starts with none is cut as a token that is dropped. -/
theorem exists_lexes_blank (offset : Nat) (previous : Option Char) {x : List Char} (v tail : List Char)
    (dark : x.head?.all Text.isBlank = false) :
    ∃ found, Lexes lengths offset previous [' '] found (x ++ v ++ tail) ∧ found.filter kept = [] := by
  have hbehind : (x ++ v ++ tail).head?.any Text.isBlank = false := by
    cases x with
    | nil => cases dark
    | cons z x => exact dark
  obtain ⟨found, hfound, hdropped⟩ := lexes_of_blank offset previous (w := [' '])
    (List.forall_mem_singleton.2 (by decide)) hbehind
  exact ⟨found, hfound, List.filter_eq_nil_iff.2 fun t ht => by simp [hdropped t ht]⟩

section

variable {op : BinaryOp} {z : Char} {place : Nat} {rule : Rule} {x y : List Char} {left right : Expr}

/-- The tokens of an operation in brackets are those of its operands and three more. -/
theorem exists_lexes_operation (mark : Mark op z place rule) {offset middle last : Nat}
    {previous : Option Char} {tail : List Char} {ts us : List Token}
    (hmiddle : middle = offset + 1 + Text.byteLength x + 1)
    (hlast : last = middle + Text.byteLength [z] + 1 + Text.byteLength y)
    (dark : y.head?.all Text.isBlank = false)
    (hts : Lexes lengths (offset + 1) (some '(') x ts ([' '] ++ ([z] ++ ([' '] ++ (y ++ [')']))) ++ tail))
    (hus : Lexes lengths (middle + Text.byteLength [z] + 1) (some ' ') y us ([')'] ++ tail)) :
    ∃ found, Lexes lengths offset previous
        (['('] ++ (x ++ ([' '] ++ ([z] ++ ([' '] ++ (y ++ [')'])))))) found tail ∧
      found.filter kept = ⟨9, String.ofList ['('], ⟨offset, offset + 1⟩⟩ :: (ts.filter kept ++
        ⟨place + 2, String.ofList [z], ⟨middle, middle + Text.byteLength [z]⟩⟩ ::
          (us.filter kept ++ [⟨11, String.ofList [')'], ⟨last, last + 1⟩⟩])) := by
  subst hlast hmiddle
  have hopening (v : List Char) : firstLength lengths previous (['('] ++ v) = some (9, 1) :=
    firstLength_mark (show rows[7]? = some [['(']] from rfl) (by decide) (by decide) (by simp)
  have hclosing (previous : Option Char) (v : List Char) :
      firstLength lengths previous ([')'] ++ v) = some (11, 1) :=
    firstLength_mark (show rows[9]? = some [[')']] from rfl) (by decide) (by decide) (by simp)
  obtain ⟨bs, hbs, dropBs⟩ := exists_lexes_blank (offset + 1 + Text.byteLength x)
    (x.getLast?.or (some '(')) ([' '] ++ (y ++ [')'])) tail mark.dark
  obtain ⟨cs, hcs, dropCs⟩ := exists_lexes_blank
    (offset + 1 + Text.byteLength x + 1 + Text.byteLength [z]) (some z) [')'] tail dark
  refine ⟨_, .cons (hopening _) (hts.append (hbs.append (.cons (mark.firstLength _ _)
    (hcs.append (hus.append (.single (hclosing _ _))))))), ?_⟩
  rw [List.filter_cons_of_pos rfl, List.filter_append, List.filter_append, dropBs, List.nil_append,
    List.filter_cons_of_pos (mark.kept rfl), List.filter_append, dropCs, List.nil_append,
    List.filter_append, List.filter_cons_of_pos rfl, List.filter_nil]
  rfl

/-- An operation in brackets is read from the texts of its operands. -/
theorem ReadsAs.operation (arithmetic : op.isArithmetic = true) (hleft : ReadsAs x left)
    (hright : ReadsAs y right) (typeLeft : left.type = Expr.decimalType)
    (typeRight : right.type = Expr.decimalType) :
    ReadsAs (['('] ++ (x ++ ([' '] ++ (op.symbol.toList ++ ([' '] ++ (y ++ [')']))))))
      (.binary op left right Expr.decimalType) := by
  obtain ⟨z, place, rule, mark⟩ := exists_mark arithmetic
  obtain ⟨precedence, build, hkind, hbuild⟩ := mark.exists_kind arithmetic typeLeft typeRight
  refine ⟨show Text.isBlank '(' = false by decide, fun offset previous tail stop => ?_⟩
  obtain ⟨middle, hmiddle⟩ : ∃ middle, middle = offset + 1 + Text.byteLength x + 1 := ⟨_, rfl⟩
  obtain ⟨last, hlast⟩ : ∃ last, last = middle + Text.byteLength [z] + 1 + Text.byteLength y := ⟨_, rfl⟩
  obtain ⟨ts, hts, applyTs⟩ := hleft.reads (offset + 1) (some '(')
    ([' '] ++ ([z] ++ ([' '] ++ (y ++ [')']))) ++ tail) (show isStop ' ' = true by decide)
  obtain ⟨us, hus, applyUs⟩ := hright.reads (middle + Text.byteLength [z] + 1) (some ' ')
    ([')'] ++ tail) (show isStop ')' = true by decide)
  obtain ⟨found, hfound, hkept⟩ := exists_lexes_operation mark hmiddle hlast hright.dark hts hus
  rw [mark.symbol]
  refine ⟨found, hfound, fun s => ?_⟩
  have hwidth : 0 < Text.byteLength [z] := z.utf8Size_pos
  have hextent : offset + Text.byteLength (['('] ++ (x ++ ([' '] ++ ([z] ++ ([' '] ++ (y ++ [')'])))))) =
      last + 1 := by
    have hblank : Text.byteLength [' '] = 1 := rfl
    have hopen : Text.byteLength ['('] = 1 := rfl
    have hclose : Text.byteLength [')'] = 1 := rfl
    simp only [Text.byteLength_append]
    omega
  rw [hkept, hextent]
  refine applyAll_of_inBrackets (o := ⟨place + 2, _, _⟩) (linked_of_make? made_language) ⟨?_, ?_⟩
    (isOpen_language rfl) hkind (closes_language rfl rfl) (hbuild _) applyTs applyUs s
  · simp only [List.isChain_cons_cons, List.isChain_singleton, and_true]
    omega
  · exact Nat.lt_add_of_pos_right hwidth

end

/-! ## Trees read back -/

theorem toList_print_binary (op : BinaryOp) (left right : Expr) (type : ValueType) :
    (Expr.binary op left right type).print.toList =
      ['('] ++ (left.print.toList ++ ([' '] ++ (op.symbol.toList ++ ([' '] ++
        (right.print.toList ++ [')']))))) := by
  simp [Expr.print, toString]

/-- The text of a tree is read as that tree, with its constants in normal form. -/
theorem exists_readsAs {e : Expr} (h : e.Decimals) :
    ∃ f, ReadsAs e.print.toList f ∧ f.type = Expr.decimalType ∧ f.same e = true := by
  induction h with
  | constant d =>
    have hsame : (Value.ofDecimal d.normalize).same (.ofDecimal d) = true :=
      beq_iff_eq.2 d.compare_normalize
    exact ⟨_, readsAs_print d, rfl, Bool.and_eq_true_iff.2 ⟨hsame, decide_eq_true rfl⟩⟩
  | @operation op left right e arithmetic left_decimals right_decimals built hleft hright =>
    obtain ⟨l, readsLeft, typeLeft, sameLeft⟩ := hleft
    obtain ⟨r, readsRight, typeRight, sameRight⟩ := hright
    rw [Expr.binary?_decimals arithmetic left_decimals.type_eq right_decimals.type_eq] at built
    cases built
    rw [toList_print_binary]
    exact ⟨_, readsLeft.operation arithmetic readsRight typeLeft typeRight, rfl,
      by simp [Expr.same, sameLeft, sameRight]⟩

/-- A text that is read as an operand is the formula of that operand. -/
theorem parse_of_readsAs {text : String} {e : Expr} (h : ReadsAs text.toList e) :
    language.parse text [] = .ok e := by
  obtain ⟨found, hfound, happly⟩ := h.reads 0 none [] rfl
  have hscan := scan_of_lexes made_language hfound
  refine Trace.parse_eq_ok.2
    ⟨(ParseState.start []).pushOperand ⟨e, ⟨0, 0 + Text.byteLength text.toList⟩⟩, ?_, ?_, rfl⟩
  · rw [hscan]
    exact happly (.start [])
  · rw [hscan]
    rfl

/-- The text of a tree of decimals and operations is a formula with that tree as its body. -/
theorem parse_print (e : Expr) (h : e.Decimals) :
    ∃ f, parse e.print = .ok ⟨[], f⟩ ∧ f.same e = true := by
  obtain ⟨f, hreads, htype, hsame⟩ := exists_readsAs h
  have hdecimal : toDecimal e.print f = .ok f := by
    have hconvert : f.convertTo (.number .decimal) = .ok (some f) := if_pos htype
    rw [toDecimal, hconvert, htype]
    rfl
  exact ⟨f, bind_eq_ok.2 ⟨f, parse_of_readsAs hreads, bind_eq_ok.2 ⟨f, hdecimal, rfl⟩⟩, hsame⟩

theorem parse_print_sum : ∃ e f, e.Decimals ∧ e.print = "((2.5 * 0) + -1.5)" ∧
    parse e.print = .ok ⟨[], f⟩ ∧ f.same e = true := by
  have hproduct := Expr.Decimals.operation (show BinaryOp.multiply.isArithmetic = true from rfl)
    (.constant ⟨false, 250, 2, by decide, by decide⟩) (.constant .zero) (Expr.binary?_decimals rfl rfl rfl)
  have hsum := Expr.Decimals.operation (show BinaryOp.add.isArithmetic = true from rfl) hproduct
    (.constant ⟨true, 15, 1, by decide, by decide⟩) (Expr.binary?_decimals rfl rfl rfl)
  obtain ⟨f, hparse, hsame⟩ := parse_print _ hsum
  exact ⟨_, f, hsum, by decide +kernel, hparse, hsame⟩

end Arithmetic

end Parlance
