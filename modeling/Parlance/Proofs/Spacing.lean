import Mathlib.Data.List.Chain
import Parlance.Proofs.Alignment
import Parlance.Proofs.Junctions
import Parlance.Proofs.Safety
import Parlance.Proofs.Soundness

/-!
# White space between the tokens of a formula

A formula that is taken has no operand side by side with another one, so of two tokens side by side one is
an operator, a bracket or a comma. From such a token none goes on into what is behind it, and the word
boundary of a pattern is at it or is not looked for: the characters up to it are cut the same whatever the
white space behind, and so are those from the next token on. The minus is the exception, for one in front
of a digit is the sign of a number.

The tokens that are kept then have the same rules and texts at other places, and a state of the parser
does with them what it did before (`applyAll_finish_congr`).
-/

namespace Parlance

/-! ## Tokens side by side -/

namespace Grammar

variable {g : Grammar} {ts us : List Token} {t o : Token} {c : Category}

/-- Of two tokens side by side the former does not end an operand, or the latter does not start one. -/
def Joins (g : Grammar) (t u : Token) : Prop :=
  (g.kind t.rule).endsOperand = false ∨ (g.kind u.rule).startsOperand = false

theorem chain_lead (leads : ∀ t ∈ ts, (g.kind t.rule).endsOperand = false) (h : us.IsChain g.Joins) :
    (ts ++ us).IsChain g.Joins := by
  induction ts with
  | nil => exact h
  | cons t ts ih =>
    obtain ⟨ht, hts⟩ := List.forall_mem_cons.1 leads
    exact List.isChain_cons.2 ⟨fun u _ => .inl ht, ih hts⟩

theorem chain_trail (trails : ∀ t ∈ us, (g.kind t.rule).startsOperand = false)
    (h : ts.IsChain g.Joins) : (ts ++ us).IsChain g.Joins := by
  have hus : us.IsChain g.Joins := by
    induction us with
    | nil => exact .nil
    | cons u us ih =>
      obtain ⟨hu, hus⟩ := List.forall_mem_cons.1 trails
      exact List.isChain_cons.2 ⟨fun v hv => .inr (hus v (List.mem_of_mem_head? hv)), ih hus⟩
  exact List.isChain_append.2
    ⟨h, hus, fun t _ u hu => .inr (trails u (List.mem_of_mem_head? hu))⟩

theorem chain_join (ends : (g.kind o.rule).endsOperand = false)
    (starts : (g.kind o.rule).startsOperand = false) (h : ts.IsChain g.Joins)
    (h' : us.IsChain g.Joins) : (ts ++ o :: us).IsChain g.Joins := by
  rw [List.append_cons]
  have hts : (ts ++ [o]).IsChain g.Joins := chain_trail (by simpa using starts) h
  refine List.isChain_append.2 ⟨hts, h', fun t ht u _ => ?_⟩
  rw [List.getLast?_concat] at ht
  cases ht
  exact .inl ends

theorem IsOperator.inert {positions : List Side} (h : g.IsOperator positions o) :
    (g.kind o.rule).endsOperand = false ∧ (g.kind o.rule).startsOperand = false := by
  obtain ⟨precedence, build, h⟩ := h
  rw [h]
  exact ⟨rfl, rfl⟩

/-- In an expression no token that ends an operand stands before one that starts an operand. -/
theorem Derives.chain (linked : g.Linked) (h : g.Derives c ts) : ts.IsChain g.Joins := by
  have hclose {close opening : Token} (h : g.Closes close opening) :
      ∀ t ∈ [close], (g.kind t.rule).startsOperand = false := by
    obtain ⟨opens, delimiter, hkind, -⟩ := h
    simp [hkind, RuleKind.startsOperand]
  have hopen {opening : Token} (h : g.IsOpen opening ∨ g.IsCall opening) :
      ∀ t ∈ [opening], (g.kind t.rule).endsOperand = false := by
    intro t ht
    rw [List.mem_singleton.1 ht]
    rcases h with hkind | ⟨overloads, hkind⟩ <;> rw [hkind] <;> rfl
  induction h with
  | term _ ih => exact ih
  | join _ operator _ ihl ihr => exact chain_join operator.inert.1 operator.inert.2 ihl ihr
  | primary leads _ trails ih =>
    exact chain_trail (fun t ht => (trails t ht).inert.2)
      (chain_lead (fun t ht => (leads t ht).inert.1) ih)
  | operand => exact .singleton _
  | bracket opens _ closes ih =>
    exact chain_trail (hclose closes) (chain_lead (hopen (.inl opens)) ih)
  | callNone opens closes =>
    exact chain_trail (hclose closes) (chain_lead (hopen (.inr opens)) .nil)
  | call opens _ closes ih =>
    exact chain_trail (hclose closes) (chain_lead (hopen (.inr opens)) ih)
  | last _ ih => exact ih
  | @more close delimiter ts us _ separates _ ihl ihr =>
    have hdelimiter := linked.isDelimiter separates
    have hinert : (g.kind delimiter.rule).endsOperand = false ∧
        (g.kind delimiter.rule).startsOperand = false := by
      revert hdelimiter
      cases g.kind delimiter.rule <;> simp [RuleKind.isDelimiter, RuleKind.endsOperand, RuleKind.startsOperand]
    exact chain_join hinert.1 hinert.2 ihl ihr

end Grammar

namespace Arithmetic

open Pattern (isDecimalDigit isWord)

/-! ## The tokens of a text -/

/-- A token that is no white space. -/
def kept (t : Token) : Bool := !rules[t.rule]?.any (·.ignored)

variable {offset : Nat} {previous : Option Char} {cs tail : List Char} {found : List Token}
  {t : Token}

theorem lexeme_of_lexes (h : Lexes lengths offset previous cs found tail) (ht : t ∈ found) :
    ∃ rule, rules[t.rule]? = some rule ∧ Lexeme rule t.text.toList := by
  induction h with
  | nil => cases ht
  | cons first _ ih =>
    rcases List.mem_cons.1 ht with rfl | ht
    · simpa using lexeme_of_firstLength first
    · exact ih ht

/-- Tokens that are not kept are white space. -/
theorem blank_of_lexes (h : Lexes lengths offset previous cs found tail)
    (dropped : ∀ t ∈ found, kept t = false) : ∀ z ∈ cs, Text.isBlank z = true := by
  induction h with
  | nil => simp
  | @cons offset previous i x cs tail found first rest ih =>
    obtain ⟨ht, hfound⟩ := List.forall_mem_cons.1 dropped
    obtain ⟨rule, hrule, hlexeme⟩ := lexeme_of_firstLength first
    refine List.forall_mem_append.2 ⟨?_, ih hfound⟩
    have hignored : rule.ignored = true := by simpa [kept, hrule] using ht
    cases hlexeme with
    | blank _ _ blank => exact blank
    | word kept | mark kept =>
      rw [hignored] at kept
      cases kept

section

variable {l : Language} (made : Language.make? rules = .ok l) {text : String}
include made

theorem agrees : l.scanner.Agrees :=
  Scanner.agrees_of_ownBranches (scanner_of_make? made).1 (by decide +kernel)

/-- A text without a gap is cut into tokens as the lengths tell. -/
theorem exists_lexes (h : (l.scanner.scan text).gap? = none) :
    ∃ found, Lexes lengths 0 none text.toList found [] ∧
      (l.scanner.scan text).tokens = found.filter kept :=
  Scanner.exists_lexes (scanner_of_make? made).1 (agrees made) takes_lengths proper_lengths h

theorem scan_of_lexes (h : Lexes lengths 0 none text.toList found []) :
    l.scanner.scan text = ⟨found.filter kept, none⟩ :=
  Scanner.scanFrom_of_lexes (scanner_of_make? made).1 (agrees made) takes_lengths proper_lengths h
    rfl rfl rfl rfl

omit made in
theorem gap?_of_parse {parameters : List Parameter} {e : Expr} (h : l.parse text parameters = .ok e) :
    (l.scanner.scan text).gap? = none := by
  obtain ⟨-, -, hscan, -⟩ := Trace.parse_eq_ok.1 h
  unfold Language.afterScan at hscan
  split at hscan
  · cases hscan
  · assumption

/-- In a formula no token that ends an operand stands before one that starts an operand. -/
theorem chain_of_parse {parameters : List Parameter} {e : Expr} (h : l.parse text parameters = .ok e) :
    (l.scanner.scan text).tokens.IsChain l.grammar.Joins := by
  have hplain : ∀ r ∈ rules, r.ignored = false → r.kind.Plain := by decide
  obtain ⟨hrules, -, -⟩ := of_make? made
  obtain ⟨found, hfound, htokens⟩ := exists_lexes made (gap?_of_parse h)
  obtain ⟨x, hx, -⟩ := Trace.exists_of_parse h
  have hkinds : ∀ t ∈ (l.scanner.scan text).tokens, (l.grammar.kind t.rule).Plain := by
    intro t ht
    rw [htokens, List.mem_filter] at ht
    obtain ⟨rule, hrule, -⟩ := lexeme_of_lexes hfound ht.1
    rw [Grammar.kind_eq (by rw [hrules, hrule])]
    exact hplain rule (List.mem_of_getElem? hrule) (by simpa [kept, hrule] using ht.2)
  have linked := linked_of_make? made
  obtain ⟨hformed, hderived⟩ :=
    Trace.formed_of_parse linked (Scanner.ordered_scan _ text) hkinds hx
  rw [← hderived]
  exact (Grammar.Derives.of_formed hformed).chain linked

end

/-! ## Tokens about white space -/

/-- Two texts of tokens that are kept, of which the former ends no operand or the latter starts none. -/
structure Beside (rule rule' : Rule) (x x' : List Char) : Prop where
  former : Lexeme rule x
  latter : Lexeme rule' x'
  keptFormer : rule.ignored = false
  keptLatter : rule'.ignored = false
  joins : rule.kind.endsOperand = false ∨ rule'.kind.startsOperand = false

/-- A token starts an operand unless it is a single stop. -/
theorem Lexeme.starts_or {rule : Rule} {x : List Char} (lexeme : Lexeme rule x)
    (kept : rule.ignored = false) :
    rule.kind.startsOperand = true ∨ ∃ z, x = [z] ∧ isStop z = true := by
  cases lexeme with
  | blank ignored =>
    rw [ignored] at kept
    cases kept
  | word _ starts => exact .inl starts
  | mark _ _ _ starts => exact starts

namespace Beside

variable {rule rule' : Rule} {x x' w v : List Char} {y : Char}

/-- The former text ends with a mark, or with a word before a stop. -/
theorem stop_or_mark (h : Beside rule rule' x x') (last : x.getLast? = some y) :
    isWordy y = true ∧ (∃ z, x' = [z] ∧ isStop z = true) ∨
      (y ∈ ['+', '*', '/', '%', '(', ')', ','] ∨ x = ['-']) := by
  obtain ⟨former, latter, kept, kept', joins⟩ := h
  cases former with
  | blank ignored =>
    rw [ignored] at kept
    cases kept
  | word _ _ ends last' wordy =>
    cases last.symm.trans last'
    have hstarts := joins.resolve_left (by simp [ends])
    exact .inl ⟨wordy, (latter.starts_or kept').resolve_left (by simp [hstarts])⟩
  | mark _ last' mark =>
    cases last.symm.trans last'
    exact .inr mark

/-- No token goes on over white space, nor from the former text to the latter. -/
theorem apart (h : Beside rule rule' x x') (last : x.getLast? = some y)
    (blank : ∀ z ∈ w, Text.isBlank z = true)
    (minus : x = ['-'] → (w ++ (x' ++ v)).head?.any isDecimalDigit = false) :
    Apart y (w ++ (x' ++ v)) := by
  rcases h.stop_or_mark last with ⟨wordy, z, rfl, hz⟩ | mark | rfl
  · refine .word wordy ?_
    cases w with
    | nil => exact hz
    | cons z w => exact Bool.or_eq_true_iff.2 (.inl (blank z List.mem_cons_self))
  · exact .mark mark
  · cases last
    exact .minus (minus rfl)

/-- Words of the latter text do not depend on what is between the two. -/
theorem isWord_eq {w' : List Char} (h : Beside rule rule' x x') (last : x.getLast? = some y)
    (blank : ∀ z ∈ w, Text.isBlank z = true) (blank' : ∀ z ∈ w', Text.isBlank z = true) :
    (w.getLast?.or (some y)).any isWord = (w'.getLast?.or (some y)).any isWord ∨
      (x' ++ v).head?.any isStop = true := by
  have hmarks : ∀ y ∈ ['+', '*', '/', '%', '(', ')', ','], isWord y = false :=
    List.all_iff_forall_prop.1 (by decide)
  have hblank {w : List Char} (blank : ∀ z ∈ w, Text.isBlank z = true) (hy : isWord y = false) :
      (w.getLast?.or (some y)).any isWord = false := by
    cases hw : w.getLast? with
    | none => exact hy
    | some z => exact Text.isWord_of_isBlank (blank z (List.mem_of_getLast? hw))
  have hword : isWord y = false ∨ (x' ++ v).head?.any isStop = true := by
    rcases h.stop_or_mark last with ⟨-, z, rfl, hz⟩ | mark | rfl
    · exact .inr hz
    · exact .inl (hmarks y mark)
    · cases last
      exact .inl (by decide)
  exact hword.imp_left fun hy => (hblank blank hy).trans (hblank blank' hy).symm

end Beside

/-- A minus that is read as a token has no digit behind it. -/
theorem not_digit_of_minus {i : Nat} (first : firstLength lengths previous ('-' :: tail) = some (i, 1)) :
    tail.head?.any isDecimalDigit = false := by
  cases tail with
  | nil => rfl
  | cons z tail =>
    refine Bool.eq_false_iff.2 fun hz => ?_
    have hnumber : numberLength previous ('-' :: z :: tail) = some (wholeLength tail + 1 + 1) := by
      rw [numberLength, if_pos rfl, unsignedLength_cons, if_pos (by simpa using hz)]
      rfl
    have hfirst : firstLength lengths previous ('-' :: z :: tail) = some (0, wholeLength tail + 1 + 1) := by
      simp only [lengths, List.cons_append, firstLength, hnumber]
    rw [hfirst] at first
    cases first

/-- A token that is kept does not start with white space. -/
theorem not_blank_of_kept {i n : Nat} (first : firstLength lengths previous cs = some (i, n))
    (keeps : (rules[i]?.any (·.ignored)) = false) : cs.head?.any Text.isBlank = false := by
  cases cs with
  | nil => rfl
  | cons z cs =>
    refine Bool.eq_false_iff.2 fun hz => ?_
    rw [firstLength_of_blank hz] at first
    cases first
    exact absurd keeps (by decide)

/-- White space before a token that is kept is cut as one token that is not, or as none. -/
theorem lexes_of_blank (offset : Nat) (previous : Option Char) {w v : List Char} (blank : ∀ z ∈ w, Text.isBlank z = true)
    (behind : v.head?.any Text.isBlank = false) :
    ∃ found, Lexes lengths offset previous w found v ∧ ∀ t ∈ found, kept t = false := by
  cases w with
  | nil => exact ⟨[], .nil, by simp⟩
  | cons z w =>
    have hpart : ((z :: w) ++ v).takeWhile Text.isBlank = z :: w := by
      have hv : v.takeWhile Text.isBlank = [] := by
        cases v with
        | nil => rfl
        | cons x v => rw [List.takeWhile_cons, if_neg (by simpa using behind)]
      rw [List.takeWhile_append_of_pos blank, hv, List.append_nil]
    have hfirst : firstLength lengths previous ((z :: w) ++ v) = some (18, (z :: w).length) := by
      rw [List.cons_append, firstLength_of_blank (blank z List.mem_cons_self), ← List.cons_append, hpart]
    refine ⟨_, .single hfirst, fun t ht => ?_⟩
    rw [List.mem_singleton.1 ht]
    rfl

/-- The tokens up to a character from which none goes on are the same whatever is behind it. -/
theorem lexes_apart {u tail' : List Char} {y : Char} (h : Lexes lengths offset previous u found tail)
    (last : u.getLast? = some y) (apart : Apart y tail) (apart' : Apart y tail') :
    Lexes lengths offset previous u found tail' := by
  refine h.retail proper_lengths fun x previous ⟨s, hs⟩ hx l hl => ?_
  have lastX : x.getLast? = some y := by
    rw [← last, ← hs, List.getLast?_append, List.getLast?_eq_some_getLast hx, Option.some_or]
  rw [apart.lengths_append lastX previous l hl, apart'.lengths_append lastX previous l hl]

/-! ## Another stretch of white space -/

/-- Three stretches of a text: the tokens up to one that is kept, tokens that are not, and those from the
next one that is kept on. The two tokens that are kept may stand side by side. -/
structure Spaced (u w v : List Char) (before mid after : List Token) (a b : Token) : Prop where
  former : Lexes lengths 0 none u (before ++ [a]) (w ++ v)
  white : Lexes lengths (0 + Text.byteLength u) (u.getLast?.or none) w mid v
  latter : Lexes lengths (0 + Text.byteLength u + Text.byteLength w) (w.getLast?.or (u.getLast?.or none)) v
    (b :: after) []
  keptFormer : kept a = true
  keptLatter : kept b = true
  dropped : ∀ t ∈ mid, kept t = false
  joins : ∀ rule rule', rules[a.rule]? = some rule → rules[b.rule]? = some rule' →
    rule.kind.endsOperand = false ∨ rule'.kind.startsOperand = false

/-- The texts of the two tokens, at the end of the former stretch and at the front of the latter one. -/
structure Seam (a b : Token) (u w v x x' cs : List Char) (y : Char) (rule rule' : Rule) : Prop where
  beside : Beside rule rule' x x'
  former : a.text = String.ofList x
  latter : b.text = String.ofList x'
  behind : v = x' ++ cs
  last : x.getLast? = some y
  ends : u.getLast? = some y
  minus : x = ['-'] → (w ++ v).head?.any isDecimalDigit = false
  first : v.head? = x'.head?
  dark : v.head?.any Text.isBlank = false

namespace Spaced

variable {u w v w' : List Char} {before mid after : List Token} {a b : Token}

theorem exists_seam (h : Spaced u w v before mid after a b) :
    ∃ x x' cs y rule rule', Seam a b u w v x x' cs y rule rule' := by
  obtain ⟨former, -, latter, keptFormer, keptLatter, -, joins⟩ := h
  obtain ⟨u, x, rfl, -, ha⟩ := former.split
  obtain ⟨x, cs, rfl, haEq, hfirst, hnil⟩ := ha.exists_first
  obtain rfl := hnil.eq_nil
  obtain ⟨x', cs, rfl, hbEq, hfirst', -⟩ := latter.exists_first
  obtain ⟨rule, hrule, lexeme⟩ := lexeme_of_firstLength hfirst
  obtain ⟨rule', hrule', lexeme'⟩ := lexeme_of_firstLength hfirst'
  have hx : x ≠ [] := List.ne_nil_of_length_pos (firstLength_pos_le proper_lengths hfirst).1
  have hx' : x' ≠ [] := List.ne_nil_of_length_pos (firstLength_pos_le proper_lengths hfirst').1
  rw [List.append_nil cs] at hfirst'
  refine ⟨x, x', cs, x.getLast hx, rule, rule', ⟨lexeme, lexeme', ?_, ?_, joins rule rule' hrule hrule'⟩,
    by rw [haEq], by rw [hbEq], rfl, List.getLast?_eq_some_getLast hx, ?_, ?_,
    List.head?_append_of_ne_nil _ hx', not_blank_of_kept hfirst' ?_⟩
  · simpa [kept, hrule] using keptFormer
  · simpa [kept, hrule'] using keptLatter
  · rw [List.append_nil, List.getLast?_append, List.getLast?_eq_some_getLast hx, Option.some_or]
  · rintro rfl
    exact not_digit_of_minus hfirst
  · simpa [kept] using keptLatter

/-- The tokens about a stretch of white space are cut alike about another one. -/
theorem respaced (h : Spaced u w v before mid after a b)
    (blank : ∀ z ∈ w', Text.isBlank z = true)
    (minus : w' = [] → a.text = "-" → b.text.toList.head?.any isDecimalDigit = false) :
    ∃ found, Lexes lengths 0 none (u ++ (w' ++ v)) found [] ∧
      List.Forall₂ (fun t t' => t.rule = t'.rule ∧ t.text = t'.text)
        ((before ++ [a] ++ (mid ++ b :: after)).filter kept) (found.filter kept) := by
  obtain ⟨x, x', cs, y, rule, rule', seam⟩ := h.exists_seam
  have hwhite := blank_of_lexes h.white h.dropped
  have apart : Apart y (w ++ v) := by
    rw [seam.behind]
    exact seam.beside.apart seam.last hwhite (seam.behind ▸ seam.minus)
  have apart' : Apart y (w' ++ v) := by
    rw [seam.behind]
    refine seam.beside.apart seam.last blank fun hminus => ?_
    cases w' with
    | nil =>
      have hdigit := minus rfl (by rw [seam.former, hminus])
      rwa [seam.latter, String.toList_ofList, ← seam.first, seam.behind] at hdigit
    | cons z w' => exact Text.isDecimalDigit_of_isBlank (blank z List.mem_cons_self)
  have hformer := lexes_apart h.former seam.ends apart apart'
  obtain ⟨white, hwhite', hdropped⟩ := lexes_of_blank (0 + Text.byteLength u)
    (u.getLast?.or none) blank seam.dark
  have agree : ∀ l ∈ lengths, l (w.getLast?.or (u.getLast?.or none)) (v ++ []) =
      l (w'.getLast?.or (u.getLast?.or none)) (v ++ []) := by
    rw [seam.ends, Option.or_none, List.append_nil, seam.behind]
    exact lengths_previous (seam.beside.isWord_eq seam.last hwhite blank)
  obtain ⟨latter, hlatter, halike⟩ := h.latter.restart
    (0 + Text.byteLength u + Text.byteLength w') _ proper_lengths agree
  rw [← List.append_nil v, ← List.append_assoc] at hformer
  rw [← List.append_nil v] at hwhite'
  refine ⟨_, hformer.append (hwhite'.append hlatter), ?_⟩
  have hmid : mid.filter kept = [] := List.filter_eq_nil_iff.2 fun t ht => by simp [h.dropped t ht]
  have hnone : white.filter kept = [] := List.filter_eq_nil_iff.2 fun t ht => by simp [hdropped t ht]
  have hkept : List.Forall₂ (fun t t' => t.rule = t'.rule ∧ t.text = t'.text)
      ((b :: after).filter kept) (latter.filter kept) :=
    List.rel_filter (fun t t' h => by simp [kept, h.1]) halike
  rw [List.filter_append, List.filter_append mid, hmid, List.filter_append _ (white ++ latter),
    List.filter_append white, hnone]
  exact List.rel_append (List.forall₂_same.2 fun t _ => ⟨rfl, rfl⟩) hkept

end Spaced

section

variable {l : Language} (made : Language.make? rules = .ok l) {u w v w' : String}
  {before after : List Token} {a b : Token} {parameters : List Parameter} {e : Expr}
include made

/-- The white space between two tokens of a formula. -/
theorem spaced_of_parse (h : l.parse (u ++ w ++ v) parameters = .ok e)
    (tokens : (l.scanner.scan (u ++ w ++ v)).tokens = before ++ a :: b :: after)
    (stop : a.extent.stop = Text.byteLength u.toList)
    (start : b.extent.start = Text.byteLength (u ++ w).toList) :
    ∃ before' mid after', Spaced u.toList w.toList v.toList before' mid after' a b ∧
      before ++ a :: b :: after = (before' ++ [a] ++ (mid ++ b :: after')).filter kept := by
  obtain ⟨found, hfound, htokens⟩ := exists_lexes made (gap?_of_parse h)
  have hkept := htokens.symm.trans tokens
  obtain ⟨first, rest, rfl, -, hrest⟩ := List.filter_eq_append_iff.1 hkept
  obtain ⟨white, rest, rfl, -, keptFormer, hrest⟩ := List.filter_eq_cons_iff.1 hrest
  obtain ⟨mid, after', rfl, dropped, keptLatter, -⟩ := List.filter_eq_cons_iff.1 hrest
  have hassoc : first ++ (white ++ a :: (mid ++ b :: after')) =
      first ++ white ++ [a] ++ (mid ++ b :: after') := by simp
  rw [hassoc] at hfound hkept
  obtain ⟨x, rest, htext, former, hrest⟩ := hfound.split
  obtain ⟨y, z, rfl, hwhite, latter⟩ := hrest.split
  obtain ⟨x', cs, -, hb, -⟩ := latter.exists_first
  rw [String.toList_append, String.toList_append, List.append_assoc] at htext
  obtain ⟨rfl, hwv⟩ := Text.append_inj htext (by
    rw [← stop, former.stop_eq, Nat.zero_add])
  obtain ⟨rfl, rfl⟩ := Text.append_inj hwv (by
    have hstart := congrArg (·.extent.start) hb
    simp only [start, String.toList_append, Text.byteLength_append, Nat.zero_add] at hstart
    exact Nat.add_left_cancel hstart)
  rw [List.append_nil] at former hwhite
  obtain ⟨hrules, -, -⟩ := of_make? made
  have hchain := chain_of_parse made h
  rw [tokens] at hchain
  have hjoins := (List.isChain_append_cons_cons.1 hchain).2.1
  refine ⟨first ++ white, mid, after', ⟨former, hwhite, latter, keptFormer, keptLatter, ?_, ?_⟩, hkept.symm⟩
  · exact fun t ht => Bool.eq_false_iff.2 (dropped t ht)
  · intro rule rule' hrule hrule'
    rwa [Grammar.Joins, Grammar.kind_eq (by rw [hrules, hrule]), Grammar.kind_eq (by rw [hrules, hrule'])]
      at hjoins

/-- Another stretch of white space between them gives the same expression. -/
theorem parse_respaced (h : l.parse (u ++ w ++ v) parameters = .ok e)
    (tokens : (l.scanner.scan (u ++ w ++ v)).tokens = before ++ a :: b :: after)
    (stop : a.extent.stop = Text.byteLength u.toList)
    (start : b.extent.start = Text.byteLength (u ++ w).toList)
    (blank : ∀ z ∈ w'.toList, Text.isBlank z = true)
    (minus : w' = "" → a.text = "-" → b.text.toList.head?.any isDecimalDigit = false) :
    l.parse (u ++ w' ++ v) parameters = .ok e := by
  obtain ⟨before', mid, after', spaced, hkept⟩ := spaced_of_parse made h tokens stop start
  obtain ⟨found, hfound, halike⟩ := spaced.respaced blank fun hw => minus (String.toList_eq_nil_iff.1 hw)
  have hscan : l.scanner.scan (u ++ w' ++ v) = ⟨found.filter kept, none⟩ :=
    scan_of_lexes made (by simpa using hfound)
  obtain ⟨s, hs, -, hfinish⟩ := Trace.parse_eq_ok.1 h
  rw [← hkept, ← tokens] at halike
  have hparse := applyAll_finish_congr (Scanner.ordered_scan _ (u ++ w ++ v))
    (hscan ▸ Scanner.ordered_scan l.scanner (u ++ w' ++ v)) halike (bind_eq_ok.2 ⟨s, hs, hfinish⟩)
  obtain ⟨s', hs', hfinish'⟩ := bind_eq_ok.1 hparse
  exact Trace.parse_eq_ok.2 ⟨s', by rw [hscan]; exact hs', by rw [hscan]; rfl, hfinish'⟩

end

/-- The text of a formula shows in an error only. -/
theorem toDecimal_text {text : String} (text' : String) {body converted : Expr}
    (h : toDecimal text body = .ok converted) : toDecimal text' body = .ok converted := by
  unfold toDecimal at h ⊢
  dsimp only at h ⊢
  split at h
  · split at h
    · rwa [if_pos ‹_›]
    · simp at h
  · simp at h
  · simp at h

/-- White space between two tokens of a formula may be made any other white space, or none unless the
former is a minus and the latter starts with a digit. The formula is the same one. -/
theorem compile_respaced {u w v w' : String} {before after : List Token} {a b : Token}
    {parameters : List Parameter} {f : Lambda} (h : compile (u ++ w ++ v) parameters = .ok f)
    (tokens : (language.scanner.scan (u ++ w ++ v)).tokens = before ++ a :: b :: after)
    (stop : a.extent.stop = Text.byteLength u.toList)
    (start : b.extent.start = Text.byteLength (u ++ w).toList)
    (blank : ∀ z ∈ w'.toList, Text.isBlank z = true)
    (minus : w' = "" → a.text = "-" → b.text.toList.head?.any isDecimalDigit = false) :
    compile (u ++ w' ++ v) parameters = .ok f := by
  obtain ⟨body, hbody, h⟩ := bind_eq_ok.1 h
  obtain ⟨converted, hconverted, h⟩ := bind_eq_ok.1 h
  have hparse := parse_respaced (make?_eq_ofRules rules_fit) hbody tokens stop start blank minus
  exact bind_eq_ok.2 ⟨body, hparse, bind_eq_ok.2 ⟨converted, toDecimal_text _ hconverted, h⟩⟩

theorem compile_respaced_sum :
    ∃ f, compile ("1" ++ " " ++ "+ 2") [] = .ok f ∧ compile ("1" ++ "" ++ "+ 2") [] = .ok f := by
  -- one evaluation, since the language is read anew in each
  have hread : (compile ("1" ++ " " ++ "+ 2") []).toOption.isSome = true ∧
      (language.scanner.scan ("1" ++ " " ++ "+ 2")).tokens =
        [] ++ ⟨0, "1", ⟨0, 1⟩⟩ :: ⟨12, "+", ⟨2, 3⟩⟩ :: [⟨0, "2", ⟨4, 5⟩⟩] := by decide +kernel
  obtain ⟨hparse, htokens⟩ := hread
  obtain ⟨f, hf⟩ := Option.isSome_iff_exists.1 hparse
  have hf := toOption_eq_some.1 hf
  refine ⟨f, hf, compile_respaced hf htokens ?_ ?_ ?_ ?_⟩
  · decide
  · decide
  · simp
  · exact fun _ minus => absurd minus (by decide)

/-- A minus with a number close behind it is the sign of the number. -/
theorem not_respaced_minus :
    ∃ f, compile ("1 -" ++ " " ++ "2") [] = .ok f ∧
      (language.scanner.scan ("1 -" ++ " " ++ "2")).tokens =
        [⟨0, "1", ⟨0, 1⟩⟩, ⟨13, "-", ⟨2, 3⟩⟩, ⟨0, "2", ⟨4, 5⟩⟩] ∧
      compile ("1 -" ++ "" ++ "2") [] ≠ .ok f := by
  have hread : (compile ("1 -" ++ " " ++ "2") []).toOption.isSome = true ∧
      (language.scanner.scan ("1 -" ++ " " ++ "2")).tokens =
        [⟨0, "1", ⟨0, 1⟩⟩, ⟨13, "-", ⟨2, 3⟩⟩, ⟨0, "2", ⟨4, 5⟩⟩] ∧
      (compile ("1 -" ++ "" ++ "2") []).toOption.isSome = false := by decide +kernel
  obtain ⟨hspaced, htokens, hclose⟩ := hread
  obtain ⟨f, hf⟩ := Option.isSome_iff_exists.1 hspaced
  refine ⟨f, toOption_eq_some.1 hf, htokens, fun h => ?_⟩
  rw [toOption_eq_some.2 h] at hclose
  cases hclose

end Arithmetic

end Parlance
