import Parlance.Proofs.Matches

/-!
# Tokens by their characters

What a rule takes at a place is told by the character before the place and by those behind it
(`Takes`): for a row of characters, and for white space, by what the pattern lists; for a pattern with
nested repetitions by a run of its automaton, one character after the other. The token at a place is then
that of the first rule that takes something (`Scanner.matchAt?_eq`).
-/

namespace Parlance

open Pattern (Cursor CharSet Automaton Matcher)

/-! ## Going on by characters -/

namespace Pattern.Cursor

/-- The place behind some of the next characters. -/
def skip (c : Cursor) : Nat → Cursor
  | 0 => c
  | n + 1 =>
    match c.next? with
    | some (_, d) => d.skip n
    | none => c

variable {c d : Cursor} {x : Char} {xs ys : List Char}

/-- A place is the end of the text, or there is a next character. -/
theorem next?_cases (c : Cursor) : (c.next? = none ∧ c.rest = []) ∨
    ∃ x d, c.next? = some (x, d) ∧ c.rest = x :: d.rest ∧ d.previous = some x := by
  unfold next?
  split
  · rename_i hrest
    exact .inl ⟨rfl, hrest⟩
  · rename_i x rest hrest
    exact .inr ⟨x, _, rfl, hrest, rfl⟩

theorem next?_of_cons (h : c.rest = x :: xs) :
    ∃ d, c.next? = some (x, d) ∧ d.rest = xs ∧ d.previous = some x := by
  rcases c.next?_cases with ⟨-, hrest⟩ | ⟨y, d, hnext, hrest, hprevious⟩
  · rw [hrest] at h
    cases h
  · rw [hrest] at h
    cases h
    exact ⟨d, hnext, rfl, hprevious⟩

theorem skip_succ (h : c.next? = some (x, d)) (n : Nat) : c.skip (n + 1) = d.skip n := by
  rw [skip, h]

theorem reaches_skip (c : Cursor) (n : Nat) : c.Reaches (c.skip n) := by
  induction n generalizing c with
  | zero => exact .refl
  | succ n ih =>
    rcases c.next?_cases with ⟨hnext, -⟩ | ⟨x, d, hnext, -, -⟩
    · rw [skip, hnext]
      exact .refl
    · rw [skip_succ hnext]
      exact (Reaches.refl.next hnext).trans (ih d)

theorem rest_skip (c : Cursor) (n : Nat) : (c.skip n).rest = c.rest.drop n := by
  induction n generalizing c with
  | zero => rfl
  | succ n ih =>
    rcases c.next?_cases with ⟨hnext, hrest⟩ | ⟨x, d, hnext, hrest, -⟩
    · rw [skip, hnext, hrest, List.drop_nil]
    · rw [skip_succ hnext, ih, hrest, List.drop_succ_cons]

theorem skip_of_end (h : c.next? = none) (n : Nat) : c.skip n = c := by
  cases n with
  | zero => rfl
  | succ n => rw [skip, h]

theorem skip_skip (c : Cursor) (m n : Nat) : (c.skip m).skip n = c.skip (m + n) := by
  induction m generalizing c with
  | zero => rw [skip, Nat.zero_add]
  | succ m ih =>
    rcases c.next?_cases with ⟨hnext, -⟩ | ⟨x, d, hnext, -, -⟩
    · rw [skip_of_end hnext, skip_of_end hnext, skip_of_end hnext]
    · rw [Nat.succ_add, skip_succ hnext, skip_succ hnext, ih]

/-- What is behind the characters that have been skipped, and the last of them. -/
theorem skip_append (h : c.rest = xs ++ ys) : (c.skip xs.length).rest = ys ∧
    (c.skip xs.length).previous = xs.getLast?.or c.previous ∧
      (c.skip xs.length).offset = c.offset + Text.byteLength xs := by
  induction xs generalizing c with
  | nil => exact ⟨h, rfl, rfl⟩
  | cons x xs ih =>
    obtain ⟨d, hnext, hrest, hprevious⟩ := next?_of_cons (h.trans (List.cons_append ..))
    obtain ⟨hskip, hlast, hoffset⟩ := ih hrest
    rw [List.length_cons, skip_succ hnext]
    refine ⟨hskip, ?_, ?_⟩
    · rw [hlast, hprevious, List.getLast?_cons]
      cases xs.getLast? <;> rfl
    · rw [hoffset, (next?_eq_some hnext).2.1, Text.byteLength, Nat.add_assoc]

theorem offset_lt_skip (h : c.rest ≠ []) {n : Nat} (hn : 0 < n) : c.offset < (c.skip n).offset := by
  obtain ⟨n, rfl⟩ := Nat.exists_eq_succ_of_ne_zero hn.ne'
  rcases c.next?_cases with ⟨-, hrest⟩ | ⟨x, d, hnext, -, -⟩
  · exact absurd hrest h
  · rw [Nat.succ_eq_add_one, skip_succ hnext]
    have hoffset := (next?_eq_some hnext).2.1
    have hpos := x.utf8Size_pos
    have hle := (d.reaches_skip n).le
    omega

end Pattern.Cursor

/-! ## Rows of characters -/

namespace Pattern

/-- The characters of a set that is a list of them. -/
def CharSet.members? : CharSet → Option (List Char)
  | nothing => some []
  | interval lo hi => if lo = hi then some [lo] else none
  | union a b => a.members?.bind fun xs => b.members?.map (xs ++ ·)
  | _ => none

theorem CharSet.contains_eq {set : CharSet} {members : List Char} (h : set.members? = some members)
    (x : Char) : set.contains x = members.contains x := by
  fun_induction members? set generalizing members with
  | case1 =>
    cases h
    rfl
  | case2 lo =>
    cases h
    rw [CharSet.contains, List.contains_cons, List.contains_nil, Bool.or_false, Bool.eq_iff_iff]
    simp only [Bool.and_eq_true, decide_eq_true_eq, beq_iff_eq]
    exact ⟨fun h => (Char.le_antisymm h.1 h.2).symm, fun h => h ▸ ⟨Char.le_refl _, Char.le_refl _⟩⟩
  | case3 => cases h
  | case4 a b iha ihb =>
    obtain ⟨xs, ha, h⟩ := Option.bind_eq_some_iff.1 h
    obtain ⟨ys, hb, rfl⟩ := Option.map_eq_some_iff.1 h
    rw [CharSet.contains, iha ha, ihb hb, Bool.eq_iff_iff]
    simp
  | case5 => cases h

theorem CharSet.contains_digit (x : Char) : digit.contains x = isDecimalDigit x := rfl

theorem CharSet.contains_single (x y : Char) : (interval y y).contains x = (x == y) := by
  have h : (interval y y).members? = some [y] := by simp [members?]
  rw [contains_eq h, List.contains_cons, List.contains_nil, Bool.or_false]

/-- Whether characters start with one of each list in turn. -/
def inRow : List (List Char) → List Char → Bool
  | [], _ => true
  | members :: row, x :: cs => members.contains x && inRow row cs
  | _ :: _, [] => false

/-- The characters that a pattern takes one after the other. -/
def row? : Pattern → Option (List (List Char))
  | one set => set.members?.map ([·])
  | seq (one set) rest => set.members?.bind fun members => rest.row?.map (members :: ·)
  | _ => none

variable {p : Pattern} {row : List (List Char)}

theorem ends_look (l : Look) (c : Cursor) : (look l).ends [c] = if l.holds c then [c] else [] := by
  rw [ends, List.filter_cons, List.filter_nil]

theorem ends_one {set : CharSet} {members : List Char} (h : set.members? = some members) (c : Cursor) :
    (one set).ends [c] = if inRow [members] c.rest then [c.skip 1] else [] := by
  rw [ends, List.filterMap_cons, List.filterMap_nil, Cursor.pass?]
  rcases c.next?_cases with ⟨hnext, hrest⟩ | ⟨x, d, hnext, hrest, -⟩
  · simp [hnext, hrest, inRow]
  · simp only [hnext, hrest, inRow, CharSet.contains_eq h, Bool.and_true, Cursor.skip_succ hnext]
    cases members.contains x <;> rfl

theorem ends_seq_one {set : CharSet} {members : List Char} (h : set.members? = some members)
    (rest : Pattern) (c : Cursor) :
    (seq (one set) rest).ends [c] = if inRow [members] c.rest then rest.ends [c.skip 1] else [] := by
  rw [ends, ends_one h]
  split
  · rfl
  · exact ends_nil rest

theorem ends_of_row? (h : p.row? = some row) (c : Cursor) :
    p.ends [c] = if inRow row c.rest then [c.skip row.length] else [] := by
  fun_induction row? p generalizing row c with
  | case1 set =>
    obtain ⟨members, hmembers, rfl⟩ := Option.map_eq_some_iff.1 h
    exact ends_one hmembers c
  | case2 set rest ih =>
    obtain ⟨members, hmembers, h⟩ := Option.bind_eq_some_iff.1 h
    obtain ⟨row, hrow, rfl⟩ := Option.map_eq_some_iff.1 h
    rw [ends_seq_one hmembers, ih hrow]
    rcases c.next?_cases with ⟨-, hrest⟩ | ⟨x, d, hnext, hrest, -⟩
    · simp [hrest, inRow]
    · have hskip : c.skip 1 = d := Cursor.skip_succ hnext 0
      by_cases hx : x ∈ members <;> simp [hrest, inRow, hx, hskip, Cursor.skip_succ hnext]
  | case3 => cases h

theorem isFlat_of_row? (h : p.row? = some row) : p.isFlat = true := by
  fun_induction row? p generalizing row with
  | case1 => rfl
  | case2 set rest ih =>
    obtain ⟨members, -, h⟩ := Option.bind_eq_some_iff.1 h
    obtain ⟨row, hrow, -⟩ := Option.map_eq_some_iff.1 h
    exact ih hrow
  | case3 => cases h

end Pattern

/-! ## What a rule takes -/

/-- The number of characters that are taken behind one that may be there. -/
abbrev Length : Type := Option Char → List Char → Option Nat

/-- A length is never more than there is, and never nought. -/
def Length.Proper (length : Length) : Prop :=
  ∀ previous cs n, length previous cs = some n → 0 < n ∧ n ≤ cs.length

/-- A rule takes what a length tells, wherever it may be. -/
def Takes (rule : Rule) (length : Length) : Prop :=
  ∀ c, Scanner.ownMatch? rule c = (length c.previous c.rest).map c.skip

theorem takes_of_parse? {rule : Rule} {p : Pattern} {length : Length}
    (h : Pattern.parse? rule.pattern = some p)
    (hmatch : ∀ c, (Matcher.ofPattern p).match? c = (length c.previous c.rest).map c.skip) :
    Takes rule length := fun c => by
  rw [Scanner.ownMatch?, h, Option.bind_some, hmatch]

/-- The length of a row of characters. -/
def rowLength (row : List (List Char)) : Length := fun _ cs =>
  if Pattern.inRow row cs then some row.length else none

theorem inRow_length {row : List (List Char)} {cs : List Char} (h : Pattern.inRow row cs = true) :
    row.length ≤ cs.length := by
  fun_induction Pattern.inRow row cs with
  | case1 => exact Nat.zero_le _
  | case2 members row x cs ih => exact Nat.succ_le_succ (ih (Bool.and_eq_true_iff.1 h).2)
  | case3 => cases h

theorem not_inRow_of_head {row : List (List Char)} {z : Char} {cs : List Char}
    (h : row.head?.all (·.contains z) = false) : Pattern.inRow row (z :: cs) = false := by
  cases row with
  | nil => cases h
  | cons members row => rw [Pattern.inRow, show members.contains z = false from h, Bool.false_and]

theorem proper_row {row : List (List Char)} (h : row ≠ []) : Length.Proper (rowLength row) := by
  intro previous cs n hn
  rw [rowLength, Option.ite_none_right_eq_some] at hn
  obtain ⟨hrow, hn⟩ := hn
  cases hn
  exact ⟨List.length_pos_of_ne_nil h, inRow_length hrow⟩

theorem takes_row {rule : Rule} {row : List (List Char)}
    (h : (Pattern.parse? rule.pattern).bind Pattern.row? = some row) : Takes rule (rowLength row) := by
  obtain ⟨p, hp, hrow⟩ := Option.bind_eq_some_iff.1 h
  refine takes_of_parse? hp fun c => ?_
  rw [Matcher.ofPattern, if_pos (Pattern.isFlat_of_row? hrow), Matcher.match?,
    Pattern.ends_of_row? hrow, rowLength]
  split <;> rfl

/-- The first of some lengths that tells something, by its place and what it tells. -/
def firstLength : List Length → Option Char → List Char → Option (Nat × Nat)
  | [], _, _ => none
  | length :: lengths, previous, cs =>
    match length previous cs with
    | some n => some (0, n)
    | none => (firstLength lengths previous cs).map fun (i, n) => (i + 1, n)

theorem firstLength_pos_le {lengths : List Length} {previous : Option Char} {cs : List Char} {i n : Nat}
    (proper : ∀ l ∈ lengths, l.Proper) (h : firstLength lengths previous cs = some (i, n)) :
    0 < n ∧ n ≤ cs.length := by
  induction lengths generalizing i with
  | nil => cases h
  | cons length lengths ih =>
    obtain ⟨hlength, hlengths⟩ := List.forall_mem_cons.1 proper
    rw [firstLength] at h
    split at h
    · rename_i m hm
      cases h
      exact hlength _ _ _ hm
    · obtain ⟨⟨j, m⟩, hm, heq⟩ := Option.map_eq_some_iff.1 h
      cases heq
      exact ih hlengths hm

theorem firstLength_congr {lengths : List Length} {previous previous' : Option Char}
    {cs cs' : List Char} (h : ∀ l ∈ lengths, l previous cs = l previous' cs') :
    firstLength lengths previous cs = firstLength lengths previous' cs' := by
  induction lengths with
  | nil => rfl
  | cons length lengths ih =>
    obtain ⟨hlength, hlengths⟩ := List.forall_mem_cons.1 h
    rw [firstLength, firstLength, hlength, ih hlengths]

theorem firstLength_append {lengths lengths' : List Length} {previous : Option Char} {cs : List Char}
    (h : ∀ l ∈ lengths, l previous cs = none) : firstLength (lengths ++ lengths') previous cs =
      (firstLength lengths' previous cs).map fun (i, n) => (lengths.length + i, n) := by
  induction lengths with
  | nil => simp
  | cons length lengths ih =>
    obtain ⟨hlength, hlengths⟩ := List.forall_mem_cons.1 h
    rw [List.cons_append, firstLength, hlength, ih hlengths, Option.map_map]
    simp only [List.length_cons, Nat.add_right_comm, Function.comp_def]

/-- The first length is that of a rule. -/
theorem exists_of_firstLength {P : Rule → Length → Prop} {rules : List Rule} {lengths : List Length}
    {previous : Option Char} {cs : List Char} {i n : Nat} (h : List.Forall₂ P rules lengths)
    (first : firstLength lengths previous cs = some (i, n)) :
    ∃ rule l, rules[i]? = some rule ∧ P rule l ∧ l previous cs = some n := by
  induction h generalizing i with
  | nil => cases first
  | @cons rule length rules lengths hlength _ ih =>
    rw [firstLength] at first
    split at first
    · rename_i m hm
      cases first
      exact ⟨rule, length, rfl, hlength, hm⟩
    · obtain ⟨⟨j, m⟩, hj, heq⟩ := Option.map_eq_some_iff.1 first
      cases heq
      exact ih hj

namespace Scanner

variable {rules : List Rule} {rule : Rule} {length : Length} {lengths : List Length} {s : Scanner}
  {c : Cursor}

theorem taken?_of_takes (takes : Takes rule length) (proper : length.Proper) :
    taken? rule c = (length c.previous c.rest).map c.skip := by
  rw [taken?, takes]
  cases hn : length c.previous c.rest with
  | none => rfl
  | some n =>
    obtain ⟨hpos, hle⟩ := proper _ _ _ hn
    have hrest : c.rest ≠ [] := List.ne_nil_of_length_pos (hpos.trans_le hle)
    have hlt := Cursor.offset_lt_skip hrest hpos
    exact Option.filter_some_pos (by simpa using hlt.ne')

theorem wins_iff (takes : List.Forall₂ Takes rules lengths) (proper : ∀ l ∈ lengths, l.Proper)
    {i : Nat} {stop : Cursor} : Wins (taken? · c) rules ⟨i, stop⟩ ↔
      ∃ n, firstLength lengths c.previous c.rest = some (i, n) ∧ c.skip n = stop := by
  induction takes generalizing i with
  | nil => simp [firstLength, not_wins_nil]
  | @cons rule length rules lengths hrule _ ih =>
    obtain ⟨hlength, hlengths⟩ := List.forall_mem_cons.1 proper
    rw [wins_cons, taken?_of_takes hrule hlength, firstLength]
    cases length c.previous c.rest with
    | some n => simp [eq_comm]
    | none =>
      simp only [Option.map_none, ih hlengths, Option.map_eq_some_iff, Prod.exists]
      constructor
      · rintro (⟨-, hstop⟩ | ⟨-, j, rfl, n, hn, hstop⟩)
        · cases hstop
        · exact ⟨n, ⟨j, n, hn, rfl⟩, hstop⟩
      · rintro ⟨n, ⟨j, k, hjk, heq⟩, hstop⟩
        cases heq
        exact .inr ⟨trivial, j, rfl, n, hjk, hstop⟩

/-- The scanner finds what the first length tells. -/
theorem matchAt?_eq (made : make? rules = .ok s) (agrees : s.Agrees)
    (takes : List.Forall₂ Takes rules lengths) (proper : ∀ l ∈ lengths, l.Proper) :
    s.matchAt? c = (firstLength lengths c.previous c.rest).map fun (i, n) => ⟨i, c.skip n⟩ := by
  refine Option.ext fun ⟨i, stop⟩ => ?_
  rw [matchAt?_eq_some made agrees, wins_iff takes proper]
  simp

end Scanner

/-! ## Texts and their tokens -/

/-- Texts of one number of bytes at the front of one text are the same. -/
theorem Text.append_inj {xs ys xs' ys' : List Char} (h : xs ++ ys = xs' ++ ys')
    (hlength : byteLength xs = byteLength xs') : xs = xs' ∧ ys = ys' := by
  have htake := congrArg (takeBytes (byteLength xs)) h
  have hdrop := congrArg (dropBytes (byteLength xs)) h
  rw [takeBytes_append, hlength, takeBytes_append] at htake
  rw [dropBytes_append, hlength, dropBytes_append] at hdrop
  exact ⟨htake, hdrop⟩

/-- Characters are cut into tokens as the first lengths tell, with others behind them. Where the
characters stand is told by an offset and by the character before them. -/
inductive Lexes (lengths : List Length) : Nat → Option Char → List Char → List Token → List Char → Prop
  | nil {offset : Nat} {previous : Option Char} {tail : List Char} :
      Lexes lengths offset previous [] [] tail
  | cons {offset : Nat} {previous : Option Char} {i : Nat} {x cs tail : List Char} {found : List Token}
      (first : firstLength lengths previous (x ++ (cs ++ tail)) = some (i, x.length))
      (rest : Lexes lengths (offset + Text.byteLength x) (x.getLast?.or previous) cs found tail) :
      Lexes lengths offset previous (x ++ cs)
        (⟨i, String.ofList x, ⟨offset, offset + Text.byteLength x⟩⟩ :: found) tail

namespace Lexes

variable {lengths : List Length} {offset : Nat} {previous : Option Char} {u v tail : List Char}
  {found found' : List Token}

theorem single {i : Nat} (first : firstLength lengths previous (u ++ tail) = some (i, u.length)) :
    Lexes lengths offset previous u [⟨i, String.ofList u, ⟨offset, offset + Text.byteLength u⟩⟩] tail := by
  have h : Lexes lengths offset previous (u ++ []) _ tail := .cons first .nil
  rwa [List.append_nil] at h

/-- The first token has the text at the front. -/
theorem exists_first {t : Token} (h : Lexes lengths offset previous u (t :: found) tail) :
    ∃ x cs, u = x ++ cs ∧ t = ⟨t.rule, String.ofList x, ⟨offset, offset + Text.byteLength x⟩⟩ ∧
      firstLength lengths previous (x ++ (cs ++ tail)) = some (t.rule, x.length) ∧
      Lexes lengths (offset + Text.byteLength x) (x.getLast?.or previous) cs found tail := by
  cases h with
  | cons first rest => exact ⟨_, _, rfl, rfl, first, rest⟩

theorem eq_nil (h : Lexes lengths offset previous u [] tail) : u = [] := by
  cases h
  rfl

theorem append (h : Lexes lengths offset previous u found (v ++ tail))
    (h' : Lexes lengths (offset + Text.byteLength u) (u.getLast?.or previous) v found' tail) :
    Lexes lengths offset previous (u ++ v) (found ++ found') tail := by
  generalize hbehind : v ++ tail = behind at h
  induction h with
  | nil => simpa [Text.byteLength] using h'
  | @cons offset previous i x cs behind found first rest ih =>
    subst hbehind
    rw [List.append_assoc, List.cons_append]
    refine .cons (by rwa [List.append_assoc]) (ih ?_ rfl)
    rwa [Nat.add_assoc, ← Text.byteLength_append, ← Option.or_assoc, ← List.getLast?_append]

theorem split (h : Lexes lengths offset previous u (found ++ found') tail) :
    ∃ v w, u = v ++ w ∧ Lexes lengths offset previous v found (w ++ tail) ∧
      Lexes lengths (offset + Text.byteLength v) (v.getLast?.or previous) w found' tail := by
  induction found generalizing offset previous u with
  | nil => exact ⟨[], u, rfl, .nil, by simpa [Text.byteLength] using h⟩
  | cons t found ih =>
    cases h with
    | @cons _ _ i x cs _ _ first rest =>
      obtain ⟨v, w, rfl, hv, hw⟩ := ih rest
      refine ⟨x ++ v, w, (List.append_assoc ..).symm, .cons (by rwa [← List.append_assoc v]) hv, ?_⟩
      rwa [Text.byteLength_append, ← Nat.add_assoc, List.getLast?_append, Option.or_assoc]

/-- The characters behind may be others if no length tells them apart. -/
theorem retail {tail' : List Char} (proper : ∀ l ∈ lengths, l.Proper)
    (h : Lexes lengths offset previous u found tail)
    (agree : ∀ x previous, x <:+ u → x ≠ [] →
      ∀ l ∈ lengths, l previous (x ++ tail) = l previous (x ++ tail')) :
    Lexes lengths offset previous u found tail' := by
  induction h with
  | nil => exact .nil
  | @cons offset previous i x cs tail found first rest ih =>
    refine .cons ?_ (ih fun y previous hy => agree y previous (hy.trans (List.suffix_append x cs)))
    have hne : x ++ cs ≠ [] := by
      have hx := List.ne_nil_of_length_pos (firstLength_pos_le proper first).1
      simp [hx]
    rw [← List.append_assoc] at first ⊢
    rwa [← firstLength_congr (agree (x ++ cs) previous (List.suffix_refl _) hne)]

/-- The characters may stand elsewhere if no length tells the characters before them apart. -/
theorem restart (offset' : Nat) (previous' : Option Char) (proper : ∀ l ∈ lengths, l.Proper)
    (h : Lexes lengths offset previous u found tail)
    (agree : ∀ l ∈ lengths, l previous (u ++ tail) = l previous' (u ++ tail)) :
    ∃ found', Lexes lengths offset' previous' u found' tail ∧
      List.Forall₂ (fun t t' => t.rule = t'.rule ∧ t.text = t'.text) found found' := by
  induction h generalizing offset' previous' with
  | nil => exact ⟨[], .nil, .nil⟩
  | @cons offset previous i x cs tail found first rest ih =>
    have hprevious : x.getLast?.or previous = x.getLast?.or previous' := by
      have hpos := (firstLength_pos_le proper first).1
      rw [List.getLast?_eq_some_getLast (List.ne_nil_of_length_pos hpos)]
      rfl
    obtain ⟨found', hfound', halike⟩ := ih (offset' + Text.byteLength x) (x.getLast?.or previous')
      fun l hl => by rw [hprevious]
    rw [List.append_assoc] at agree
    rw [firstLength_congr agree] at first
    exact ⟨_, .cons first hfound', .cons ⟨rfl, rfl⟩ halike⟩

/-- The last token ends with the characters. -/
theorem stop_eq {t : Token} (h : Lexes lengths offset previous u (found ++ [t]) tail) :
    t.extent.stop = offset + Text.byteLength u := by
  obtain ⟨v, x, rfl, -, hx⟩ := h.split
  obtain ⟨x, cs, rfl, ht, -, hcs⟩ := hx.exists_first
  obtain rfl := hcs.eq_nil
  rw [ht, Text.byteLength_append, Text.byteLength_append, Text.byteLength, Nat.add_zero, Nat.add_assoc]

end Lexes

namespace Scanner

variable {rules : List Rule} {lengths : List Length} {s : Scanner} {c : Cursor}

/-- What is read without a gap is cut into these tokens up to the end. -/
theorem Reads.lexes (takes : List.Forall₂ Takes rules lengths) (proper : ∀ l ∈ lengths, l.Proper)
    {found : List Token} {gap : Option Extent} (h : Reads rules c found gap) (hgap : gap = none) :
    Lexes lengths c.offset c.previous c.rest found [] := by
  induction h with
  | @stop c untaken =>
    split at hgap
    · rename_i hempty
      rw [List.isEmpty_iff.1 hempty]
      exact .nil
    · cases hgap
  | gap => cases hgap
  | @step c m found gap next _ ih =>
    obtain ⟨i, stop⟩ := m
    obtain ⟨n, hfirst, rfl⟩ := (wins_iff takes proper).1 next.wins
    have hle := (firstLength_pos_le proper hfirst).2
    obtain ⟨x, cs, hrest, rfl⟩ : ∃ x cs, c.rest = x ++ cs ∧ x.length = n :=
      ⟨_, _, (List.take_append_drop n c.rest).symm, List.length_take_of_le hle⟩
    obtain ⟨hstop, hprevious, hoffset⟩ := Cursor.skip_append hrest
    have htext : textBetween c (c.skip x.length) = String.ofList x :=
      textBetween_eq (by rw [hstop, hrest])
    rw [hrest] at hfirst ⊢
    rw [hstop, hprevious, hoffset] at ih
    rw [htext, hoffset]
    exact .cons (by rwa [List.append_nil]) (ih hgap)

/-- A text without a gap is cut into tokens up to the end, those that are kept among them. -/
theorem exists_lexes (made : make? rules = .ok s) (agrees : s.Agrees)
    (takes : List.Forall₂ Takes rules lengths) (proper : ∀ l ∈ lengths, l.Proper)
    (h : (s.scanFrom c).gap? = none) :
    ∃ found, Lexes lengths c.offset c.previous c.rest found [] ∧
      (s.scanFrom c).tokens = found.filter fun t => !rules[t.rule]?.any (·.ignored) := by
  obtain ⟨found, hreads, htokens⟩ := reads_scanFrom made agrees c
  exact ⟨found, hreads.lexes takes proper h, htokens⟩

/-- Characters that are cut into tokens up to the end are scanned so. -/
theorem scanFrom_of_lexes (made : make? rules = .ok s) (agrees : s.Agrees)
    (takes : List.Forall₂ Takes rules lengths) (proper : ∀ l ∈ lengths, l.Proper) {offset : Nat}
    {previous : Option Char} {cs tail : List Char} {found : List Token}
    (h : Lexes lengths offset previous cs found tail) (htail : tail = []) (hoffset : c.offset = offset)
    (hprevious : c.previous = previous) (hrest : c.rest = cs) :
    s.scanFrom c = ⟨found.filter fun t => !rules[t.rule]?.any (·.ignored), none⟩ := by
  have hrules := (fallbacks_of_make? made).1
  have hmatch (c : Cursor) := matchAt?_eq (c := c) made agrees takes proper
  induction h generalizing c with
  | nil =>
    have hnone : s.matchAt? c = none := by
      rw [hmatch, hrest, Option.map_eq_none_iff, Option.eq_none_iff_forall_ne_some]
      intro ⟨i, n⟩ hfirst
      obtain ⟨hpos, hle⟩ := firstLength_pos_le proper hfirst
      exact absurd hpos (Nat.not_lt.2 hle)
    have hsearch : s.search? c = none := by
      obtain ⟨hnext, -⟩ := c.next?_cases.resolve_right (by simp [hrest])
      unfold search?
      rw [hnone]
      dsimp only
      split
      · rename_i hnext'
        rw [hnext] at hnext'
        cases hnext'
      · rfl
    unfold scanFrom
    rw [hsearch, hrest]
    rfl
  | @cons offset previous i x cs tail found first rest ih =>
    subst htail hoffset hprevious
    obtain ⟨hstop, hprevious, hoffset⟩ := Cursor.skip_append hrest
    have hm : s.matchAt? c = some ⟨i, c.skip x.length⟩ := by
      rw [List.append_nil] at first
      rw [hmatch, hrest, first]
      rfl
    have hsearch : s.search? c = some (c, ⟨i, c.skip x.length⟩) := by
      unfold search?
      rw [hm]
    have hlt : (c.skip x.length).remaining < c.remaining := by
      have hpos := (firstLength_pos_le proper first).1
      rw [Cursor.remaining_eq, Cursor.remaining_eq, hstop, hrest, List.length_append]
      omega
    have htext : textBetween c (c.skip x.length) = String.ofList x :=
      textBetween_eq (by rw [hstop, hrest])
    have hscan := ih rfl hoffset hprevious hstop
    unfold scanFrom
    rw [hsearch]
    dsimp only
    rw [if_neg (Nat.lt_irrefl _), dif_pos hlt, hscan, hrules, htext, hoffset, List.filter_cons]
    cases rules[i]?.any (·.ignored) <;> rfl

end Scanner

/-! ## Runs of automata -/

namespace Pattern.Automaton

variable {a : Automaton} {agenda ways : List Nat} {best : Option Cursor} {c d : Cursor} {x : Char}

/-- The nodes that a character leads to. -/
def moves (a : Automaton) (x : Char) (ways : List Nat) : List Nat :=
  (ways.takeWhile fun n => !a.isDone n).filterMap (a.after? x)

theorem run_of_next? (h : a.reachAll c agenda = ways) (hnext : c.next? = some (x, d)) :
    a.run agenda best c =
      let best := if ways.any a.isDone then some c else best
      if (a.moves x ways).isEmpty then best else a.run (a.moves x ways) best d := by
  rw [run, h]
  split
  · rename_i y e hnext'
    cases hnext.symm.trans hnext'
    rfl
  · rename_i hend
    cases hnext.symm.trans hend

/-- A character that leads on. -/
theorem run_on {n : Nat} {next : List Nat} (h : a.reachAll c agenda = ways)
    (hnext : c.next? = some (x, d)) (hmoves : a.moves x ways = n :: next) :
    a.run agenda best c = a.run (n :: next) (if ways.any a.isDone then some c else best) d := by
  rw [run_of_next? h hnext, hmoves]
  rfl

/-- A character that leads to nothing. -/
theorem run_stop (h : a.reachAll c agenda = ways) (hnext : c.next? = some (x, d))
    (hmoves : a.moves x ways = []) : a.run agenda best c = if ways.any a.isDone then some c else best := by
  rw [run_of_next? h hnext, hmoves]
  rfl

theorem run_end (h : a.reachAll c agenda = ways) (hnext : c.next? = none) :
    a.run agenda best c = if ways.any a.isDone then some c else best := by
  rw [run, h]
  split
  · rename_i hnext'
    cases hnext.symm.trans hnext'
  · rfl

end Pattern.Automaton

/-! ## White space -/

/-- The length of a stretch of white space. -/
def blankLength : Length := fun _ cs =>
  let n := (cs.takeWhile Text.isBlank).length
  if 0 < n then some n else none

theorem proper_blank : blankLength.Proper := by
  intro previous cs n hn
  rw [blankLength, Option.ite_none_right_eq_some] at hn
  obtain ⟨hpos, hn⟩ := hn
  cases hn
  exact ⟨hpos, (List.takeWhile_prefix _).length_le⟩

namespace Pattern

theorem head?_stretch {set : CharSet} (passed : List Cursor) (c : Cursor) :
    (stretch set 0 passed c).head? = some (c.skip (c.rest.takeWhile set.contains).length) := by
  induction hn : c.remaining using Nat.strong_induction_on generalizing c passed with
  | _ n ih =>
    rw [stretch, if_neg (by simp [Marks.has])]
    split
    · rename_i x d hnext
      obtain ⟨y, e, hnext', hrest, -⟩ := c.next?_cases.resolve_left (by simp [hnext])
      cases hnext.symm.trans hnext'
      rw [hrest, List.takeWhile_cons]
      split
      · rw [ih d.remaining (hn ▸ Cursor.next?_remaining hnext) _ d rfl, List.length_cons,
          Cursor.skip_succ hnext]
      · rfl
    · rename_i hnext
      obtain ⟨-, hrest⟩ := c.next?_cases.resolve_right (by simp [hnext])
      rw [hrest]
      rfl

theorem ends_blank (c : Cursor) : ((times (one .blank) 1 none true).ends [c]).head? =
    (blankLength c.previous c.rest).map c.skip := by
  have hstart : exactly (ends (one .blank)) 1 [c] = (c.pass? .blank).toList := by
    rw [exactly, exactly, if_neg (by simp), ends, List.filterMap_cons, List.filterMap_nil]
    cases c.pass? .blank <;> rfl
  rw [ends, hstart, Cursor.pass?, blankLength]
  rcases c.next?_cases with ⟨hnext, hrest⟩ | ⟨x, d, hnext, hrest, -⟩
  · rw [hnext, hrest]
    rfl
  · rw [hnext, hrest, List.takeWhile_cons]
    cases hx : Text.isBlank x
    · simp [CharSet.contains, hx]
    · have hhead : (stretch .blank 0 [] d).head? =
          some (d.skip (d.rest.takeWhile Text.isBlank).length) := head?_stretch [] d
      obtain ⟨last, passed⟩ := List.head?_eq_some_iff.1 hhead
      simp [CharSet.contains, hx, furtherOf, passed, Cursor.skip_succ hnext]

end Pattern

theorem takes_blank {rule : Rule}
    (h : Pattern.parse? rule.pattern = some (.times (.one .blank) 1 none true)) :
    Takes rule blankLength :=
  takes_of_parse? h Pattern.ends_blank

end Parlance
