import Parlance.Proofs.Cuts
import Parlance.Proofs.Lexemes

/-!
# Text between quotes

A filter can hold any string: `Filter.literal` puts it between quotes, with a backslash before each quote
and each backslash within. The pattern of string literals lets a backslash also stand for itself, so that
a match may end behind a later quote. But of the ways through the text it prefers the one that takes each
backslash with the character after it (`Pattern.getLast?_further`), and that way ends at the closing
quote, whatever comes after it.
-/

namespace Parlance

open Pattern (Cursor CharSet Progress Marks Matcher)

/-! ## Preferred ways through a repetition -/

namespace Pattern

variable {step : Cursor → List Cursor} {p : Progress} {c d : Cursor} {x : Char}

/-- No place from one on has been met. -/
def Marks.FreshFrom (m : Marks) (c : Cursor) : Prop := ∀ n ≤ c.remaining, m.testBit n = false

theorem Marks.FreshFrom.add {m : Marks} (h : m.FreshFrom c) (hlt : d.remaining < c.remaining) :
    (Marks.add m c).FreshFrom d := by
  intro n hn
  have hbit : (1 <<< c.remaining).testBit n = false := by
    rw [Nat.one_shiftLeft, Nat.testBit_two_pow]
    exact decide_eq_false (by omega)
  rw [Marks.add, Nat.testBit_or, h n (by omega), hbit, Bool.false_or]

/-- Earlier ends stay where they are. -/
theorem suffix_further (greedy : Bool) (step : Cursor → List Cursor) (p : Progress) (c : Cursor) :
    p.ends <:+ (further greedy step p c).ends := by
  induction hn : c.remaining using Nat.strong_induction_on generalizing c p with
  | _ n ih =>
    have hfold (ds : List Cursor) (p : Progress) : p.ends <:+ (ds.foldl (fun p d =>
        if _h : d.remaining < c.remaining then further greedy step p d else p) p).ends := by
      induction ds generalizing p with
      | nil => exact List.suffix_rfl
      | cons d ds ihd =>
        rw [List.foldl_cons]
        refine .trans ?_ (ihd _)
        split
        · rename_i hlt
          exact ih d.remaining (hn ▸ hlt) p d rfl
        · exact List.suffix_rfl
    unfold further
    split
    · exact List.suffix_rfl
    · cases greedy with
      | true => exact (hfold (step c) ⟨Marks.add p.met c, p.ends⟩).trans (List.suffix_cons _ _)
      | false => exact (List.suffix_cons _ _).trans (hfold (step c) ⟨Marks.add p.met c, c :: p.ends⟩)

/-- A way through a greedy repetition that takes the preferred round at each place, up to one at which no
round starts. -/
inductive Prefers (step : Cursor → List Cursor) : Cursor → Cursor → Prop
  | stop {c : Cursor} (none : step c = []) : Prefers step c c
  | round {c d e : Cursor} (first : (step c).head? = some d) (lt : d.remaining < c.remaining)
      (rest : Prefers step d e) : Prefers step c e

/-- The preferred end of a greedy repetition is that of the preferred way. -/
theorem getLast?_further (h : Prefers step c d) {met : Marks} (fresh : met.FreshFrom c) :
    (further true step ⟨met, []⟩ c).ends.getLast? = some d := by
  induction h generalizing met with
  | @stop c hnone =>
    unfold further
    rw [Marks.has, fresh _ (Nat.le_refl _), hnone]
    rfl
  | @round c d e hfirst hlt hrest ih =>
    obtain ⟨others, hstep⟩ := List.head?_eq_some_iff.1 hfirst
    have hend := ih (fresh.add hlt)
    have hkept (ds : List Cursor) (p : Progress) (hp : p.ends.getLast? = some e) :
        (ds.foldl (fun p d =>
          if _h : d.remaining < c.remaining then further true step p d else p) p).ends.getLast? =
            some e := by
      induction ds generalizing p with
      | nil => exact hp
      | cons d ds ihd =>
        rw [List.foldl_cons]
        apply ihd
        split
        · obtain ⟨before, hbefore⟩ := suffix_further true step p d
          rw [← hbefore, List.getLast?_append, hp]
          rfl
        · exact hp
    unfold further
    rw [Marks.has, fresh _ (Nat.le_refl _), hstep]
    simp only [Bool.false_eq_true, if_false, if_true, List.foldl_cons, dif_pos hlt,
      List.getLast?_cons, hkept _ _ hend, Option.getD_some]

theorem head?_distinct (cs : List Cursor) : (distinct cs).head? = cs.head? := by
  cases cs with
  | nil => rfl
  | cons c cs => simp [distinct, newPlaces, Marks.has]

/-- Whether no match of a pattern starts with a character. -/
def refuses (x : Char) : Pattern → Bool
  | one set => !set.contains x
  | seq first _ => first.refuses x
  | _ => false

theorem ends_one_of_cons {xs : List Char} (h : c.rest = x :: xs) (set : CharSet) :
    (one set).ends [c] = if set.contains x then [c.skip 1] else [] := by
  obtain ⟨d, hnext, -⟩ := Cursor.next?_of_cons h
  rw [ends, List.filterMap_cons, List.filterMap_nil, Cursor.pass?, hnext]
  by_cases hx : set.contains x = true <;> simp [hx, Cursor.skip, hnext]

/-- The preferred place decides if the next character is in the set there. -/
theorem head?_ends_one {xs : List Char} (h : c.rest = x :: xs) {set : CharSet}
    (hset : set.contains x = true) (others : List Cursor) :
    ((one set).ends (c :: others)).head? = some (c.skip 1) := by
  have hone := ends_one_of_cons h set
  rw [ends, if_pos hset] at hone
  rw [ends, ← List.singleton_append, List.filterMap_append, hone]
  rfl

theorem ends_of_refuses {p : Pattern} {xs : List Char} (h : p.refuses x = true)
    (hrest : c.rest = x :: xs) : p.ends [c] = [] := by
  fun_induction refuses x p with
  | case1 set =>
    have hset : set.contains x = false := by simpa using h
    rw [ends_one_of_cons hrest, hset]
    rfl
  | case2 first second ih => rw [ends, ih h, ends_nil]
  | case3 => cases h

theorem CharSet.contains_except (x y : Char) : (complement (interval y y)).contains x = (x != y) := by
  rw [contains, contains_single]
  rfl

end Pattern

/-! ## A match at a place -/

theorem Pattern.Cursor.rest_start (text : String) : (Cursor.start text).rest = text.toList := rfl

namespace Scanner

variable {s : Scanner} {c : Cursor} {m : Match}

theorem scanFrom_of_matchAt? (h : s.matchAt? c = some m) (hlt : m.stop.remaining < c.remaining)
    (hkept : s.rules[m.rule]?.any (·.ignored) = false) :
    s.scanFrom c = ⟨⟨m.rule, textBetween c m.stop, ⟨c.offset, m.stop.offset⟩⟩ ::
      (s.scanFrom m.stop).tokens, (s.scanFrom m.stop).gap?⟩ := by
  have hsearch : s.search? c = some (c, m) := by
    unfold search?
    rw [h]
  conv_lhs => unfold scanFrom
  rw [hsearch]
  dsimp only
  rw [if_neg (Nat.lt_irrefl _), dif_pos hlt, hkept]
  rfl

/-- At the end of the text there are no tokens. -/
theorem scanFrom_of_end (h : c.rest = []) : s.scanFrom c = ⟨[], none⟩ := by
  unfold scanFrom
  split
  · rw [h]
    rfl
  · rename_i d m hsearch
    have hend : c.remaining = 0 := by rw [c.remaining_eq, h, List.length_nil]
    have hreaches := (reaches_of_search? hsearch).1
    rcases hreaches.eq_or_next with rfl | ⟨x, d, hnext, -⟩
    · rw [if_neg (Nat.lt_irrefl _), dif_neg (by omega)]
    · have := Cursor.next?_remaining hnext
      omega

end Scanner

theorem Language.kind_eq {l : Language} {place : Nat} {rule : Rule}
    (h : l.scanner.rules[place]? = some rule) : l.grammar.kind place = rule.kind := by
  rw [Grammar.kind, Language.grammar, h]
  rfl

/-- A text that is one token of an operand's rule is parsed to what the builder of the rule makes. -/
theorem Language.parse_operand {l : Language} {text : String} {t : Token} {build : OperandBuilder}
    {e : Expr} {parameters : List Parameter} (hscan : l.scanner.scan text = ⟨[t], none⟩)
    (hkind : l.grammar.kind t.rule = .operand build) (hbuild : build t.text parameters = .ok e) :
    l.parse text parameters = .ok e := by
  have hstep : (ParseState.start parameters).apply l.grammar t =
      .ok ((ParseState.start parameters).pushOperand ⟨e, t.extent⟩) := by
    rw [ParseState.apply, hkind]
    simp only [ParseState.start, hbuild]
    rfl
  rw [Language.parse, hscan]
  simp only [ParseState.applyAll, hstep]
  rfl

/-! ## String literals -/

namespace Filter

/-- Puts a backslash before each backslash and each single quote. -/
def escape (cs : List Char) : List Char :=
  cs.flatMap fun c => if c = '\\' ∨ c = '\'' then ['\\', c] else [c]

/-- The literal that stands for a string. -/
def literal (s : String) : List Char := '\'' :: escape s.toList ++ ['\'']

theorem escape_cons (c : Char) (cs : List Char) : escape (c :: cs) =
    (if c = '\\' ∨ c = '\'' then ['\\', c] else [c]) ++ escape cs := List.flatMap_cons

theorem unescape_cons {c : Char} (h : c ≠ '\\') (cs : List Char) :
    unescape (c :: cs) = c :: unescape cs := by
  cases cs <;> simp [unescape, h]

theorem unescape_escape (cs : List Char) : unescape (escape cs) = cs := by
  induction cs with
  | nil => rfl
  | cons c cs ih =>
    rw [escape_cons]
    by_cases hc : c = '\\' ∨ c = '\''
    · rw [if_pos hc, List.cons_append, List.singleton_append, unescape, ih]
      rcases hc with rfl | rfl <;> rfl
    · rw [if_neg hc, List.singleton_append, unescape_cons fun hback => hc (.inl hback), ih]

theorem stringValue_literal (s : String) : stringValue (String.ofList (literal s)) = s := by
  rw [stringValue, String.toList_ofList, literal, List.cons_append, List.drop_one, List.tail_cons,
    List.dropLast_concat, unescape_escape, String.ofList_toList]

/-- A backslash with the character after it. -/
def escapedPair : Pattern :=
  .seq (.one (.interval '\\' '\\')) (.one (.complement (.interval '\n' '\n')))

/-- Any character but a quote. -/
def unquotedChar : Pattern := .one (.complement (.union (.interval '\'' '\'') .nothing))

/-- The pattern of string literals. -/
def quoted : Pattern :=
  .seq (.one (.interval '\'' '\''))
    (.seq (.times (.alt escapedPair unquotedChar) 0 none true) (.one (.interval '\'' '\'')))

/-- The places behind one piece of what stands between the quotes. -/
def piece (c : Cursor) : List Cursor := (Pattern.alt escapedPair unquotedChar).ends [c]

variable {c : Cursor} {x : Char} {cs tail : List Char}

theorem head?_piece (c : Cursor) :
    (piece c).head? = (escapedPair.ends [c] ++ unquotedChar.ends [c]).head? := by
  rw [piece, Pattern.ends, Pattern.head?_distinct, List.flatMap_singleton]

theorem piece_quote (h : c.rest = '\'' :: tail) : piece c = [] := by
  have hpair : escapedPair.refuses '\'' = true := by decide
  have hchar : unquotedChar.refuses '\'' = true := by decide
  rw [← List.head?_eq_none_iff, head?_piece, Pattern.ends_of_refuses hpair h,
    Pattern.ends_of_refuses hchar h]
  rfl

theorem head?_piece_plain (hback : x ≠ '\\') (hquote : x ≠ '\'') (h : c.rest = x :: tail) :
    (piece c).head? = some (c.skip 1) := by
  have hpair : escapedPair.refuses x = true := by
    simp [escapedPair, Pattern.refuses, CharSet.contains_single, hback]
  have hchar : (CharSet.complement (.union (.interval '\'' '\'') .nothing)).contains x = true := by
    rw [CharSet.contains, CharSet.contains, CharSet.contains_single, CharSet.contains, Bool.or_false]
    simpa using hquote
  rw [head?_piece, Pattern.ends_of_refuses hpair h, unquotedChar, Pattern.ends_one_of_cons h, hchar]
  rfl

theorem head?_piece_escaped (hline : x ≠ '\n') (h : c.rest = '\\' :: x :: tail) :
    (piece c).head? = some (c.skip 2) := by
  have hnext : (c.skip 1).rest = x :: tail := by
    rw [Cursor.rest_skip, h, List.drop_one, List.tail_cons]
  have hback : (CharSet.interval '\\' '\\').contains '\\' = true := by decide
  have hpair : escapedPair.ends [c] = [c.skip 2] := by
    rw [escapedPair, Pattern.ends, Pattern.ends_one_of_cons h, hback, if_pos rfl,
      Pattern.ends_one_of_cons hnext, CharSet.contains_except, if_pos (bne_iff_ne.2 hline),
      Cursor.skip_skip]
  rw [head?_piece, hpair]
  rfl

/-- The preferred way through an escaped text ends at the quote that closes it. -/
theorem prefers_escape (h : c.rest = escape cs ++ '\'' :: tail) :
    Pattern.Prefers piece c (c.skip (escape cs).length) := by
  induction cs generalizing c with
  | nil => exact .stop (piece_quote h)
  | cons x cs ih =>
    rw [escape_cons, List.append_assoc] at h
    rw [escape_cons, List.length_append, ← Cursor.skip_skip]
    have hskip := (Cursor.skip_append h).1
    have hfirst : (piece c).head? =
        some (c.skip (if x = '\\' ∨ x = '\'' then ['\\', x] else [x]).length) := by
      by_cases hx : x = '\\' ∨ x = '\''
      · rw [if_pos hx] at h ⊢
        apply head?_piece_escaped _ h
        rintro rfl
        simp at hx
      · rw [if_neg hx] at h ⊢
        obtain ⟨hback, hquote⟩ := not_or.1 hx
        exact head?_piece_plain hback hquote h
    refine .round hfirst ?_ (ih hskip)
    rw [Cursor.remaining_eq, Cursor.remaining_eq, hskip, h]
    nth_rewrite 2 [List.length_append]
    apply Nat.lt_add_of_pos_left
    split <;> exact Nat.succ_pos _

/-- A literal is taken whole, whatever is behind it. -/
theorem head?_quoted {s : String} (h : c.rest = literal s ++ tail) :
    (quoted.ends [c]).head? = some (c.skip (literal s).length) := by
  rw [literal, List.cons_append, List.cons_append, List.append_assoc] at h
  have hopen : (CharSet.interval '\'' '\'').contains '\'' = true := by decide
  have hinner : (c.skip 1).rest = escape s.toList ++ '\'' :: tail := by
    rw [Cursor.rest_skip, h, List.drop_one, List.tail_cons]
    rfl
  have hclose := (Cursor.skip_append hinner).1
  have hlast : ((Pattern.times (.alt escapedPair unquotedChar) 0 none true).ends [c.skip 1]).head? =
      some ((c.skip 1).skip (escape s.toList).length) := by
    have fresh : Marks.FreshFrom 0 (c.skip 1) := fun n _ => Nat.zero_testBit n
    rw [← Pattern.getLast?_further (prefers_escape hinner) fresh, ← List.head?_reverse]
    rfl
  obtain ⟨others, hends⟩ := List.head?_eq_some_iff.1 hlast
  have hlength : (literal s).length = 1 + ((escape s.toList).length + 1) := by
    rw [literal, List.length_append, List.length_cons, List.length_singleton]
    omega
  rw [quoted, Pattern.ends, Pattern.ends_one_of_cons h, hopen, if_pos rfl, Pattern.ends, hends,
    Pattern.head?_ends_one hclose hopen, Cursor.skip_skip, Cursor.skip_skip, hlength]

/-! ## Scanning a literal -/

/-- The rules that come before that of string literals. -/
def tagged : List Rule := literals.take 3

/-- The rule of string literals. -/
def stringRule : Rule :=
  .operand "STRING" "'(?:\\\\.|[^'])*'" fun text => .ok (Expr.ofValue (.string (stringValue text)))

theorem rules_eq : rules = tagged ++ stringRule :: rules.drop 4 := rfl

theorem parse?_stringRule : Pattern.parse? stringRule.pattern = some quoted := by decide +kernel

/-- None of the rules before takes a quote. -/
theorem tagged_refuse : ∀ rule ∈ tagged, (Pattern.parse? rule.pattern).any (fun p =>
    p.isFlat && p.refuses '\'') = true := by
  decide +kernel

theorem ownMatch?_tagged {rule : Rule} (hrule : rule ∈ tagged) (h : c.rest = '\'' :: tail) :
    Scanner.ownMatch? rule c = none := by
  obtain ⟨p, hp, hrefuses⟩ := (Option.any_eq_true ..).1 (tagged_refuse rule hrule)
  rw [Bool.and_eq_true] at hrefuses
  rw [Scanner.ownMatch?, hp, Option.bind_some, Matcher.ofPattern, if_pos hrefuses.1, Matcher.match?,
    Pattern.ends_of_refuses hrefuses.2 h]
  rfl

theorem ownMatch?_stringRule {s : String} (h : c.rest = literal s ++ tail) :
    Scanner.ownMatch? stringRule c = some (c.skip (literal s).length) := by
  have hflat : quoted.isFlat = true := rfl
  rw [Scanner.ownMatch?, parse?_stringRule, Option.bind_some, Matcher.ofPattern, if_pos hflat,
    Matcher.match?, head?_quoted h]

/-- The first rule that takes anything at a literal is that of string literals, and it takes the
literal. -/
theorem matchAt?_literal {s : String} (h : c.rest = literal s ++ tail) :
    language.scanner.matchAt? c = some ⟨tagged.length, c.skip (literal s).length⟩ := by
  obtain ⟨hscanner, -⟩ := scanner_of_make? (make?_eq_ofRules rules_fit)
  apply (Scanner.matchAt?_eq_some hscanner (Scanner.agrees_of_ownBranches hscanner ownBranches)).2
  have hquote : c.rest = '\'' :: (escape s.toList ++ ['\''] ++ tail) := h
  have hoffset := Cursor.offset_lt_skip (by rw [hquote]; exact List.cons_ne_nil _ _)
    (Nat.succ_pos (escape s.toList ++ ['\'']).length)
  refine ⟨tagged, stringRule, rules.drop 4, rules_eq, rfl, ?_, fun rule hrule => ?_⟩
  · exact Scanner.taken?_eq_some.2 ⟨ownMatch?_stringRule h, hoffset.ne'⟩
  · exact Scanner.taken?_of_none (ownMatch?_tagged hrule hquote)

theorem rule_at_tagged : language.scanner.rules[tagged.length]? = some stringRule := by
  obtain ⟨-, hrules, -⟩ := scanner_of_make? (make?_eq_ofRules rules_fit)
  rw [language, hrules, rules_eq, List.getElem?_append_right (Nat.le_refl _), Nat.sub_self]
  rfl

theorem kind_at_tagged : language.grammar.kind tagged.length =
    .operand fun text _ => .ok (Expr.ofValue (.string (stringValue text))) :=
  Language.kind_eq rule_at_tagged

theorem scanFrom_literal {s : String} (h : c.rest = literal s ++ tail) :
    language.scanner.scanFrom c =
      ⟨⟨tagged.length, String.ofList (literal s), ⟨c.offset, c.offset + Text.byteLength (literal s)⟩⟩ ::
        (language.scanner.scanFrom (c.skip (literal s).length)).tokens,
        (language.scanner.scanFrom (c.skip (literal s).length)).gap?⟩ := by
  obtain ⟨hrest, -, hoffset⟩ := Cursor.skip_append h
  have hkept : language.scanner.rules[tagged.length]?.any (·.ignored) = false := by
    rw [rule_at_tagged]
    rfl
  have hlt : (c.skip (literal s).length).remaining < c.remaining := by
    rw [Cursor.remaining_eq, Cursor.remaining_eq, hrest, h, List.length_append]
    exact Nat.lt_add_of_pos_left (Nat.succ_pos _)
  rw [Scanner.scanFrom_of_matchAt? (matchAt?_literal h) hlt hkept, hoffset,
    Scanner.textBetween_eq (by rw [hrest, h])]

/-- A literal by itself is the constant of the string that it stands for. -/
theorem parse_literal (s : String) (parameters : List Parameter) :
    language.parse (String.ofList (literal s)) parameters = .ok (Expr.ofValue (.string s)) := by
  have hstart : (Cursor.start (String.ofList (literal s))).rest = literal s ++ [] := by
    rw [Cursor.rest_start, String.toList_ofList, List.append_nil]
  have hend := Scanner.scanFrom_of_end (s := language.scanner) (Cursor.skip_append hstart).1
  have hscan := scanFrom_literal hstart
  rw [hend] at hscan
  apply Language.parse_operand hscan kind_at_tagged
  rw [stringValue_literal]

/-- Any string can be written as a literal: at its opening quote the scanner reads one token of the rule
of string literals, which is the literal whatever comes behind it, and the builder of the rule makes the
constant of that string. -/
theorem literal_read_back (s : String) {c : Cursor} {tail : List Char}
    (h : c.rest = literal s ++ tail) :
    ∃ t d build, language.scanner.scanFrom c =
        ⟨t :: (language.scanner.scanFrom d).tokens, (language.scanner.scanFrom d).gap?⟩ ∧
      d.rest = tail ∧ d.offset = t.extent.stop ∧ language.scanner.ruleName t = "STRING" ∧
      t.text = String.ofList (literal s) ∧
      t.extent = ⟨c.offset, c.offset + Text.byteLength (literal s)⟩ ∧
      language.grammar.kind t.rule = .operand build ∧
      ∀ parameters, build t.text parameters = .ok (Expr.ofValue (.string s)) := by
  obtain ⟨hrest, -, hoffset⟩ := Cursor.skip_append h
  refine ⟨_, _, _, scanFrom_literal h, hrest, hoffset, ?_, rfl, rfl, kind_at_tagged, fun _ => ?_⟩
  · rw [Scanner.ruleName, rule_at_tagged]
    rfl
  · show Except.ok (Expr.ofValue (.string (stringValue (String.ofList (literal s))))) = _
    rw [stringValue_literal]

/-- A backslash before a quote that is part of the string, with another literal behind. -/
theorem literal_read_back_backslash :
    ((Cursor.start "x eq '\\\\\\'' or y eq 'z'").skip 5).rest =
      literal "\\'" ++ " or y eq 'z'".toList ∧
    ∃ t d build, language.scanner.scanFrom ((Cursor.start "x eq '\\\\\\'' or y eq 'z'").skip 5) =
        ⟨t :: (language.scanner.scanFrom d).tokens, (language.scanner.scanFrom d).gap?⟩ ∧
      d.rest = " or y eq 'z'".toList ∧ language.scanner.ruleName t = "STRING" ∧
      t.text = "'\\\\\\''" ∧ t.extent = ⟨5, 11⟩ ∧ language.grammar.kind t.rule = .operand build ∧
      ∀ parameters, build t.text parameters = .ok (Expr.ofValue (.string "\\'")) := by
  have hrest : ((Cursor.start "x eq '\\\\\\'' or y eq 'z'").skip 5).rest =
      literal "\\'" ++ " or y eq 'z'".toList := by decide +kernel
  obtain ⟨t, d, build, hscan, htail, -, hname, htext, hextent, hkind, hbuild⟩ :=
    literal_read_back "\\'" hrest
  have hextent' : (⟨((Cursor.start "x eq '\\\\\\'' or y eq 'z'").skip 5).offset,
      ((Cursor.start "x eq '\\\\\\'' or y eq 'z'").skip 5).offset +
        Text.byteLength (literal "\\'")⟩ : Extent) = ⟨5, 11⟩ := by decide +kernel
  have htext' : String.ofList (literal "\\'") = "'\\\\\\''" := by decide +kernel
  exact ⟨hrest, t, d, build, hscan, htail, hname, htext.trans htext', hextent.trans hextent', hkind,
    hbuild⟩

end Filter

end Parlance
