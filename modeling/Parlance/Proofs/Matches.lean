import Parlance.Proofs.Links
import Parlance.Proofs.Scanning

/-!
# Matches in the order of rules

Each rule has at most one match at a place, that of its own pattern. A text is read by the first rule
that takes some of it, at the first place where one does (`Scanner.Reads`); a stretch that no rule takes
ends the reading. The scanner reads texts in this way if the branches of its common pattern tell which
rule matches first (`Scanner.Agrees`), though only the first match at a place is told by that pattern,
and it may be empty.
-/

namespace Parlance

/-! ## Bytes -/

namespace Text

theorem byteLength_append (cs ds : List Char) :
    byteLength (cs ++ ds) = byteLength cs + byteLength ds := by
  induction cs with
  | nil => simp [byteLength]
  | cons c cs ih => simp [byteLength, ih, Nat.add_assoc]

theorem byteLength_pos {cs : List Char} (h : cs ≠ []) : 0 < byteLength cs := by
  cases cs with
  | nil => exact absurd rfl h
  | cons c cs => exact Nat.add_pos_left c.utf8Size_pos _

theorem isBoundary_zero (cs : List Char) : isBoundary cs 0 = true := by
  cases cs <;> simp [isBoundary]

theorem isBoundary_append_add (cs ds : List Char) (offset : Nat) :
    isBoundary (cs ++ ds) (byteLength cs + offset) = isBoundary ds offset := by
  induction cs with
  | nil => rw [List.nil_append, byteLength, Nat.zero_add]
  | cons c cs ih =>
    have hpos := c.utf8Size_pos
    have hne : (c.utf8Size + byteLength cs + offset == 0) = false := by
      rw [beq_eq_false_iff_ne]
      omega
    have hle : c.utf8Size ≤ c.utf8Size + byteLength cs + offset := by omega
    have hsub : c.utf8Size + byteLength cs + offset - c.utf8Size = byteLength cs + offset := by omega
    simp only [List.cons_append, isBoundary, byteLength, hne, hle, hsub, ih, Bool.false_or, decide_true,
      Bool.true_and]

theorem isBoundary_append (cs ds : List Char) : isBoundary (cs ++ ds) (byteLength cs) = true :=
  (isBoundary_append_add cs ds 0).trans (isBoundary_zero ds)

/-- An offset between two characters is the length of those before it. -/
theorem exists_of_isBoundary {cs : List Char} {offset : Nat} (h : isBoundary cs offset = true) :
    ∃ before after, cs = before ++ after ∧ offset = byteLength before := by
  induction cs generalizing offset with
  | nil => exact ⟨[], [], rfl, beq_iff_eq.1 h⟩
  | cons c cs ih =>
    simp only [isBoundary, Bool.or_eq_true, Bool.and_eq_true, beq_iff_eq, decide_eq_true_eq] at h
    rcases h with rfl | ⟨hle, h⟩
    · exact ⟨[], c :: cs, rfl, rfl⟩
    · obtain ⟨before, after, rfl, hoffset⟩ := ih h
      refine ⟨c :: before, after, rfl, ?_⟩
      simp only [byteLength]
      omega

theorem takeBytes_append (cs ds : List Char) : takeBytes (byteLength cs) (cs ++ ds) = cs := by
  induction cs with
  | nil => cases ds <;> simp [takeBytes, byteLength]
  | cons c cs ih =>
    have := c.utf8Size_pos
    rw [List.cons_append, takeBytes, byteLength, if_neg (by omega), Nat.add_sub_cancel_left, ih]

theorem dropBytes_append (cs ds : List Char) : dropBytes (byteLength cs) (cs ++ ds) = ds := by
  induction cs with
  | nil => cases ds <;> simp [dropBytes, byteLength]
  | cons c cs ih =>
    have := c.utf8Size_pos
    rw [List.cons_append, dropBytes, byteLength, if_neg (by omega), Nat.add_sub_cancel_left, ih]

end Text

/-! ## Places -/

namespace Pattern.Cursor.Reaches

variable {c d : Cursor}

/-- What has been passed on the way, character by character. -/
theorem exists_passed (h : c.Reaches d) :
    ∃ passed, c.rest = passed ++ d.rest ∧ d.offset = c.offset + Text.byteLength passed := by
  induction h with
  | refl => exact ⟨[], rfl, rfl⟩
  | @next d d' x _ next_eq ih =>
    obtain ⟨passed, hrest, hoffset⟩ := ih
    obtain ⟨hd, hd', -⟩ := next?_eq_some next_eq
    refine ⟨passed ++ [x], ?_, ?_⟩
    · rw [hrest, hd, List.append_cons]
    · rw [hd', hoffset, Text.byteLength_append]
      simp [Text.byteLength, Nat.add_assoc]

/-- A place that is met is the one to start from, or is met from the next one. -/
theorem eq_or_next (h : c.Reaches d) : d = c ∨ ∃ x c', c.next? = some (x, c') ∧ c'.Reaches d := by
  induction h with
  | refl => exact .inl rfl
  | @next d d' x _ next_eq ih =>
    rcases ih with rfl | ⟨y, c', hc', h⟩
    · exact .inr ⟨x, d', next_eq, .refl⟩
    · exact .inr ⟨y, c', hc', h.next next_eq⟩

theorem remaining_lt (h : c.Reaches d) (hne : d.offset ≠ c.offset) : d.remaining < c.remaining := by
  induction h with
  | refl => exact absurd rfl hne
  | @next d d' x _ next_eq ih =>
    have hlt := next?_remaining next_eq
    by_cases hd : d.offset = c.offset
    · obtain rfl := Reaches.eq_of_offset_le ‹_› hd.le
      exact hlt
    · exact hlt.trans (ih hd)

end Pattern.Cursor.Reaches

namespace Scanner

open Pattern

/-! ## Reading by rules -/

/-- The end of the match of a rule's own pattern at a place. -/
def ownMatch? (rule : Rule) (c : Cursor) : Option Cursor :=
  (Pattern.parse? rule.pattern).bind fun p => (Matcher.ofPattern p).match? c

/-- The end of that match unless it is empty. -/
def taken? (rule : Rule) (c : Cursor) : Option Cursor :=
  (ownMatch? rule c).filter fun d => d.offset != c.offset

/-- The match of the first rule that has one. -/
def Wins (find? : Rule → Option Cursor) (rules : List Rule) (m : Match) : Prop :=
  ∃ before rule after, rules = before ++ rule :: after ∧ m.rule = before.length ∧
    find? rule = some m.stop ∧ ∀ r ∈ before, find? r = none

/-- The first place from one on at which a rule takes some of the text, and the match of the first rule
that does. -/
structure Next (rules : List Rule) (c d : Cursor) (m : Match) : Prop where
  reaches : c.Reaches d
  wins : Wins (taken? · d) rules m
  least : ∀ e, c.Reaches e → e.offset < d.offset → ∀ r ∈ rules, taken? r e = none

/-- How rules read a text from a place on: their matches, those that are ignored too, and the stretch
that ends them, up to the place of the next match or else up to the end. -/
inductive Reads (rules : List Rule) : Cursor → List Token → Option Extent → Prop
  | stop {c : Cursor} (untaken : ∀ d, c.Reaches d → ∀ r ∈ rules, taken? r d = none) :
      Reads rules c []
        (if c.rest.isEmpty then none else some ⟨c.offset, c.offset + Text.byteLength c.rest⟩)
  | gap {c d : Cursor} {m : Match} (next : Next rules c d m) (lt : c.offset < d.offset) :
      Reads rules c [] (some ⟨c.offset, d.offset⟩)
  | step {c : Cursor} {m : Match} {found : List Token} {gap : Option Extent}
      (next : Next rules c c m) (rest : Reads rules m.stop found gap) :
      Reads rules c (⟨m.rule, textBetween c m.stop, ⟨c.offset, m.stop.offset⟩⟩ :: found) gap

/-- The branches of the common pattern tell, wherever one of them matches, the first rule whose own
pattern matches there, and where that match ends. -/
def Agrees (s : Scanner) : Prop :=
  ∀ c m, firstMatch? c s.branches = some m ↔ Wins (ownMatch? · c) s.rules m

/-! ## The winner -/

variable {find? : Rule → Option Cursor} {rules : List Rule} {rule : Rule} {m m' : Match}

theorem wins_cons {index : Nat} {stop : Cursor} : Wins find? (rule :: rules) ⟨index, stop⟩ ↔
    index = 0 ∧ find? rule = some stop ∨
      find? rule = none ∧ ∃ i, index = i + 1 ∧ Wins find? rules ⟨i, stop⟩ := by
  constructor
  · rintro ⟨before, r, after, hrules, hindex, hr, hbefore⟩
    cases before with
    | nil =>
      cases hrules
      exact .inl ⟨hindex, hr⟩
    | cons first before =>
      cases hrules
      obtain ⟨hfirst, hbefore⟩ := List.forall_mem_cons.1 hbefore
      exact .inr ⟨hfirst, before.length, hindex, before, r, after, rfl, rfl, hr, hbefore⟩
  · rintro (⟨rfl, hr⟩ | ⟨hfirst, i, rfl, before, r, after, rfl, hi, hr, hbefore⟩)
    · exact ⟨[], rule, rules, rfl, rfl, hr, by simp⟩
    · exact ⟨rule :: before, r, after, rfl, congrArg (· + 1) hi, hr,
        List.forall_mem_cons.2 ⟨hfirst, hbefore⟩⟩

theorem not_wins_nil : ¬ Wins find? [] m := by
  rintro ⟨before, r, after, hrules, -⟩
  simp at hrules

theorem Wins.exists_mem (h : Wins find? rules m) : ∃ r ∈ rules, find? r = some m.stop := by
  obtain ⟨before, r, after, rfl, -, hr, -⟩ := h
  exact ⟨r, by simp, hr⟩

theorem Wins.unique (h : Wins find? rules m) (h' : Wins find? rules m') : m = m' := by
  induction rules generalizing m m' with
  | nil => exact absurd h not_wins_nil
  | cons rule rules ih =>
    obtain ⟨index, stop⟩ := m
    obtain ⟨index', stop'⟩ := m'
    rcases wins_cons.1 h with ⟨rfl, hr⟩ | ⟨hr, i, rfl, hi⟩ <;>
      rcases wins_cons.1 h' with ⟨rfl, hr'⟩ | ⟨hr', i', rfl, hi'⟩ <;> rw [hr] at hr' <;> cases hr'
    · rfl
    · cases ih hi hi'
      rfl

/-- There is a winner unless no rule has a match. -/
theorem exists_wins {r : Rule} {stop : Cursor} (hr : r ∈ rules) (h : find? r = some stop) :
    ∃ m, Wins find? rules m := by
  induction rules with
  | nil => cases hr
  | cons rule rules ih =>
    cases hrule : find? rule with
    | some stop => exact ⟨⟨0, stop⟩, wins_cons.2 (.inl ⟨rfl, hrule⟩)⟩
    | none =>
      rcases List.mem_cons.1 hr with rfl | hr
      · rw [hrule] at h
        cases h
      · obtain ⟨m, hm⟩ := ih hr
        exact ⟨⟨m.rule + 1, m.stop⟩, wins_cons.2 (.inr ⟨hrule, m.rule, rfl, hm⟩)⟩

theorem forall_eq_none_iff : (∀ r ∈ rules, find? r = none) ↔ ∀ m, ¬ Wins find? rules m := by
  constructor
  · intro h m hm
    obtain ⟨r, hr, hfind⟩ := hm.exists_mem
    rw [h r hr] at hfind
    cases hfind
  · intro h r hr
    cases hfind : find? r with
    | none => rfl
    | some stop =>
      obtain ⟨m, hm⟩ := exists_wins hr hfind
      exact absurd hm (h m)

/-! ## Matches of the scanner -/

variable {s : Scanner} {c d : Cursor}

theorem taken?_eq_some : taken? rule c = some d ↔ ownMatch? rule c = some d ∧ d.offset ≠ c.offset := by
  rw [taken?, Option.filter_eq_some_iff]
  simp

theorem taken?_of_none (h : ownMatch? rule c = none) : taken? rule c = none := by
  rw [taken?, h]
  rfl

theorem reaches_of_taken? (h : taken? rule c = some d) : c.Reaches d := by
  obtain ⟨p, -, hp⟩ := Option.bind_eq_some_iff.1 (taken?_eq_some.1 h).1
  exact Matcher.reaches_of_match? hp

theorem parse?_of_patternsOf {before : List String} {patterns : List Pattern}
    (h : patternsOf before rules = .ok patterns) :
    List.Forall₂ (fun rule p => Pattern.parse? rule.pattern = some p) rules patterns := by
  induction rules generalizing before patterns with
  | nil =>
    cases h
    exact .nil
  | cons rule rules ih =>
    obtain ⟨first, hfirst, h⟩ := bind_eq_ok.1 h
    obtain ⟨others, hothers, h⟩ := bind_eq_ok.1 h
    cases h
    refine .cons ?_ (ih hothers)
    unfold patternOf at hfirst
    split at hfirst
    · cases hfirst
    split at hfirst
    · cases hfirst
    split at hfirst
    · rename_i p hp
      cases hfirst
      exact hp
    · cases hfirst

/-- Each rule has a pattern, and the branches besides those of the common pattern are these. -/
theorem fallbacks_of_make? (made : make? rules = .ok s) : s.rules = rules ∧ ∃ patterns,
    List.Forall₂ (fun rule p => Pattern.parse? rule.pattern = some p) rules patterns ∧
      s.fallbacks = branchesOf (patterns.zipIdx.map fun (p, i) => (i, p)) := by
  obtain ⟨patterns, hpatterns, made⟩ := bind_eq_ok.1 made
  split at made
  · cases made
  · cases made
    refine ⟨rfl, patterns, ?_, rfl⟩
    exact parse?_of_patternsOf hpatterns

/-- A search for the first branch with a match finds the first rule with one, if the branches are the
patterns of the rules, which are counted from an index on. -/
theorem first_eq_some {first : List Branch → Option Match} {matchOf? : Branch → Option Cursor}
    {patterns : List Pattern} (hnil : first [] = none)
    (hcons : ∀ b bs, first (b :: bs) = (matchOf? b).elim (first bs) fun d => some ⟨b.rule, d⟩)
    (hmatch : ∀ {rule p} i, Pattern.parse? rule.pattern = some p →
      matchOf? ⟨i, .ofPattern p⟩ = find? rule)
    (h : List.Forall₂ (fun rule p => Pattern.parse? rule.pattern = some p) rules patterns) (index : Nat) :
    first (branchesOf ((patterns.zipIdx index).map fun (p, i) => (i, p))) = some m ↔
      ∃ i, m.rule = index + i ∧ Wins find? rules ⟨i, m.stop⟩ := by
  induction h generalizing index with
  | nil => simp [branchesOf, hnil, not_wins_nil]
  | @cons rule p rules patterns hp _ ih =>
    have hp := hmatch index hp
    rw [List.zipIdx_cons, List.map_cons, branchesOf, List.map_cons, hcons]
    cases hfind : find? rule with
    | none =>
      rw [hp, hfind]
      refine (ih (index + 1)).trans ?_
      simp only [wins_cons, hfind, reduceCtorEq, and_false, false_or, true_and]
      constructor
      · rintro ⟨i, hi, hw⟩
        exact ⟨i + 1, by omega, i, rfl, hw⟩
      · rintro ⟨-, hi, i, rfl, hw⟩
        exact ⟨i, by omega, hw⟩
    | some stop =>
      rw [hp, hfind]
      simp only [wins_cons, hfind, Option.some.injEq, reduceCtorEq, false_and, or_false, Option.elim]
      constructor
      · intro h
        cases h
        exact ⟨0, rfl, rfl, rfl⟩
      · rintro ⟨-, hi, rfl, rfl⟩
        obtain ⟨rule, stop⟩ := m
        cases hi
        rfl

theorem firstMatch?_eq_some {patterns : List Pattern}
    (h : List.Forall₂ (fun rule p => Pattern.parse? rule.pattern = some p) rules patterns) :
    firstMatch? c (branchesOf (patterns.zipIdx.map fun (p, i) => (i, p))) = some m ↔
      Wins (ownMatch? · c) rules m := by
  have hcons (b : Branch) (bs : List Branch) : firstMatch? c (b :: bs) =
      (b.matcher.match? c).elim (firstMatch? c bs) fun d => some ⟨b.rule, d⟩ := by
    rw [firstMatch?]
    cases b.matcher.match? c <;> rfl
  have hmatch {rule : Rule} {p : Pattern} (i : Nat) (hp : Pattern.parse? rule.pattern = some p) :
      (⟨i, .ofPattern p⟩ : Branch).matcher.match? c = ownMatch? rule c := by
    rw [ownMatch?, hp]
    rfl
  simpa using first_eq_some (m := m) rfl hcons hmatch h 0

theorem firstLongMatch?_eq_some {patterns : List Pattern}
    (h : List.Forall₂ (fun rule p => Pattern.parse? rule.pattern = some p) rules patterns) :
    firstLongMatch? c (branchesOf (patterns.zipIdx.map fun (p, i) => (i, p))) = some m ↔
      Wins (taken? · c) rules m := by
  have hcons (b : Branch) (bs : List Branch) : firstLongMatch? c (b :: bs) =
      ((b.matcher.match? c).filter fun d => d.offset != c.offset).elim (firstLongMatch? c bs)
        fun d => some ⟨b.rule, d⟩ := by
    rw [firstLongMatch?]
    cases b.matcher.match? c with
    | none => rfl
    | some d => by_cases hd : d.offset = c.offset <;> simp [Option.filter, hd]
  have hmatch {rule : Rule} {p : Pattern} (i : Nat) (hp : Pattern.parse? rule.pattern = some p) :
      ((⟨i, .ofPattern p⟩ : Branch).matcher.match? c).filter (fun d => d.offset != c.offset) =
        taken? rule c := by
    rw [taken?, ownMatch?, hp]
    rfl
  simpa using first_eq_some (m := m) rfl hcons hmatch h 0

/-- The scanner finds the first rule that takes some of the text. -/
theorem matchAt?_eq_some (made : make? rules = .ok s) (agrees : s.Agrees) :
    s.matchAt? c = some m ↔ Wins (taken? · c) rules m := by
  obtain ⟨hrules, patterns, hpatterns, hfallbacks⟩ := fallbacks_of_make? made
  have hlong (m : Match) : firstLongMatch? c s.fallbacks = some m ↔ Wins (taken? · c) rules m := by
    rw [hfallbacks, firstLongMatch?_eq_some hpatterns]
  have hagrees := agrees c
  rw [hrules] at hagrees
  unfold matchAt?
  split
  · rename_i hnone
    have hown : ∀ r ∈ rules, ownMatch? r c = none := forall_eq_none_iff.2 fun m hm => by
      rw [(hagrees m).2 hm] at hnone
      cases hnone
    have htaken : ∀ m, ¬ Wins (taken? · c) rules m :=
      forall_eq_none_iff.1 fun r hr => taken?_of_none (hown r hr)
    simpa using htaken m
  · rename_i m' hm'
    split
    · exact hlong m
    · rename_i hoffset
      obtain ⟨before, r, after, heq, hindex, hr, hbefore⟩ := (hagrees m').1 hm'
      have hwins : Wins (taken? · c) rules m' := ⟨before, r, after, heq, hindex,
        taken?_eq_some.2 ⟨hr, hoffset⟩, fun r hr => taken?_of_none (hbefore r hr)⟩
      constructor
      · intro h
        cases h
        exact hwins
      · intro h
        rw [hwins.unique h]

theorem Wins.exists_rule (h : Wins find? rules m) :
    ∃ rule, rules[m.rule]? = some rule ∧ find? rule = some m.stop := by
  obtain ⟨before, rule, after, rfl, hindex, hrule, -⟩ := h
  exact ⟨rule, by simp [hindex], hrule⟩

/-- The branches of the common pattern of some rules are the patterns of these rules. -/
def OwnBranches (rules : List Rule) : Prop :=
  ((Pattern.parseChars? (combinedChars rules)).map fun combined =>
    (ruleBranches rules.length combined).map fun b => (b.1, some b.2)) =
      some ((rules.map fun rule => Pattern.parse? rule.pattern).zipIdx.map fun b => (b.2, b.1))

instance (rules : List Rule) : Decidable (OwnBranches rules) := inferInstanceAs (Decidable (_ = _))

/-- With such branches the scanner's first match is that of the first rule. -/
theorem agrees_of_ownBranches (made : make? rules = .ok s) (own : OwnBranches rules) : s.Agrees := by
  obtain ⟨hrules, patterns, hpatterns, -⟩ := fallbacks_of_make? made
  obtain ⟨combined, hcombined, hbranches⟩ := Option.map_eq_some_iff.1 own
  obtain ⟨_, -, made⟩ := bind_eq_ok.1 made
  rw [hcombined] at made
  cases made
  have hparsed : (rules.map fun rule => Pattern.parse? rule.pattern) = patterns.map some :=
    List.forall₂_eq_eq_eq ▸ List.forall₂_map_left_iff.2 (List.forall₂_map_right_iff.2 hpatterns)
  have hinjective : Function.Injective fun b : Nat × Pattern => (b.1, some b.2) := by
    rintro ⟨i, p⟩ ⟨j, q⟩ h
    simpa using h
  have hown : ruleBranches rules.length combined = patterns.zipIdx.map fun b => (b.2, b.1) := by
    refine (List.map_injective_iff.2 hinjective) ?_
    rw [hbranches, hparsed, List.zipIdx_map, List.map_map, List.map_map]
    rfl
  intro c m
  exact hown ▸ firstMatch?_eq_some hpatterns

/-- The scanner looks for the first place with a match. -/
theorem search?_eq_some (h : s.search? c = some (d, m)) :
    s.matchAt? d = some m ∧ ∀ e, c.Reaches e → e.offset < d.offset → s.matchAt? e = none := by
  induction hn : c.remaining using Nat.strong_induction_on generalizing c with
  | _ n ih =>
    unfold search? at h
    split at h
    · rename_i m' hm'
      cases h
      exact ⟨hm', fun e he hlt => absurd he.le (by omega)⟩
    · rename_i hnone
      split at h
      · rename_i x c' hnext
        obtain ⟨hm, hleast⟩ := ih c'.remaining (hn ▸ Cursor.next?_remaining hnext) h rfl
        refine ⟨hm, fun e he hlt => ?_⟩
        rcases he.eq_or_next with rfl | ⟨y, c'', hnext', he⟩
        · exact hnone
        · cases hnext.symm.trans hnext'
          exact hleast e he hlt
      · cases h

theorem search?_eq_none (h : s.search? c = none) (he : c.Reaches d) : s.matchAt? d = none := by
  induction hn : c.remaining using Nat.strong_induction_on generalizing c with
  | _ n ih =>
    unfold search? at h
    split at h
    · cases h
    · rename_i hnone
      rcases he.eq_or_next with rfl | ⟨y, c'', hnext', he⟩
      · exact hnone
      · split at h
        · rename_i hnext
          cases hnext.symm.trans hnext'
          exact ih c''.remaining (hn ▸ Cursor.next?_remaining hnext') h he rfl
        · rename_i hend
          rw [hend] at hnext'
          cases hnext'

/-- The scanner reads a text as its rules do, and keeps the matches of rules that are not ignored. -/
theorem reads_scanFrom (made : make? rules = .ok s) (agrees : s.Agrees) (c : Cursor) :
    ∃ found, Reads rules c found (s.scanFrom c).gap? ∧
      (s.scanFrom c).tokens = found.filter fun t => !rules[t.rule]?.any (·.ignored) := by
  have hrules := (fallbacks_of_make? made).1
  have hnone (e : Cursor) (h : s.matchAt? e = none) : ∀ r ∈ rules, taken? r e = none :=
    forall_eq_none_iff.2 fun m hm => by
      rw [(matchAt?_eq_some made agrees).2 hm] at h
      cases h
  induction hn : c.remaining using Nat.strong_induction_on generalizing c with
  | _ n ih =>
    unfold scanFrom
    split
    · rename_i hsearch
      exact ⟨[], .stop fun d hd => hnone d (search?_eq_none hsearch hd), rfl⟩
    · rename_i d m hsearch
      obtain ⟨hreaches, hstop⟩ := reaches_of_search? hsearch
      obtain ⟨hm, hleast⟩ := search?_eq_some hsearch
      have hwins := (matchAt?_eq_some made agrees).1 hm
      have hnext : Next rules c d m := ⟨hreaches, hwins, fun e he hlt => hnone e (hleast e he hlt)⟩
      split
      · rename_i hlt
        exact ⟨[], .gap hnext hlt, rfl⟩
      · rename_i hoffset
        obtain rfl := hreaches.eq_of_offset_le (Nat.le_of_not_lt hoffset)
        obtain ⟨r, -, hr⟩ := hwins.exists_mem
        have hlt := hstop.remaining_lt (taken?_eq_some.1 hr).2
        obtain ⟨found, hreads, htokens⟩ := ih m.stop.remaining (hn ▸ hlt) m.stop rfl
        rw [dif_pos hlt, hrules]
        dsimp only
        split
        · rename_i hignored
          exact ⟨_, .step hnext hreads, by simpa [hignored] using htokens⟩
        · rename_i hignored
          exact ⟨_, .step hnext hreads, by simpa [hignored] using htokens⟩

/-! ## Tiles -/

/-- Tokens that are not empty and follow one another without a gap, from one offset to another. -/
def Tiles (start : Nat) : List Token → Nat → Prop
  | [], stop => start = stop
  | t :: ts, stop => t.extent.start = start ∧ start < t.extent.stop ∧ Tiles t.extent.stop ts stop

theorem Tiles.start_le {start stop : Nat} {ts : List Token} (h : Tiles start ts stop) : start ≤ stop := by
  induction ts generalizing start with
  | nil => exact Nat.le_of_eq h
  | cons t ts ih => exact h.2.1.le.trans (ih h.2.2)

/-- A token has the text at its place, between two characters. -/
structure Covers (text : String) (t : Token) : Prop where
  within : t.extent.Within text
  text_eq : t.text = t.extent.slice text

theorem textBetween_eq {passed : List Char} (h : c.rest = passed ++ d.rest) :
    textBetween c d = String.ofList passed := by
  rw [textBetween, c.remaining_eq, d.remaining_eq, h, List.length_append, Nat.add_sub_cancel,
    List.take_left]

theorem isBoundary_of_reaches {text : String} (h : (Cursor.start text).Reaches c) :
    Text.isBoundary text.toList c.offset = true := by
  obtain ⟨passed, hrest, hoffset⟩ := h.exists_passed
  rw [hoffset, show (Cursor.start text).offset = 0 from rfl, Nat.zero_add,
    show text.toList = passed ++ c.rest from hrest]
  exact Text.isBoundary_append passed c.rest

theorem covers_of_reaches {text : String} (h : (Cursor.start text).Reaches c) (h' : c.Reaches d)
    (rule : Nat) : Covers text ⟨rule, textBetween c d, ⟨c.offset, d.offset⟩⟩ := by
  refine ⟨⟨h'.le, isBoundary_of_reaches h, isBoundary_of_reaches (h.trans h')⟩, ?_⟩
  obtain ⟨before, hbefore, hoffset⟩ := h.exists_passed
  obtain ⟨passed, hrest, hoffset'⟩ := h'.exists_passed
  rw [show (Cursor.start text).offset = 0 from rfl, Nat.zero_add] at hoffset
  rw [textBetween_eq hrest, Extent.slice, show text.toList = before ++ c.rest from hbefore]
  simp only [Extent.length, hoffset', hoffset, Text.dropBytes_append, Nat.add_sub_cancel_left, hrest,
    Text.takeBytes_append]

theorem dropBytes_of_reaches {text : String} (h : (Cursor.start text).Reaches c) :
    Text.dropBytes c.offset text.toList = c.rest := by
  obtain ⟨passed, hrest, hoffset⟩ := h.exists_passed
  rw [hoffset, show (Cursor.start text).offset = 0 from rfl, Nat.zero_add,
    show text.toList = passed ++ c.rest from hrest]
  exact Text.dropBytes_append passed c.rest

theorem Next.reaches_stop (h : Next rules c d m) : d.Reaches m.stop ∧ d.offset < m.stop.offset := by
  obtain ⟨r, -, hr⟩ := h.wins.exists_mem
  have hreaches := reaches_of_taken? hr
  exact ⟨hreaches, lt_of_le_of_ne hreaches.le (Ne.symm (taken?_eq_some.1 hr).2)⟩

/-- Where the matches of a text end: at the stretch that no rule takes, or with the text. -/
def stopOf (text : String) (gap : Option Extent) : Nat :=
  (gap.map Extent.start).getD (Text.byteLength text.toList)

/-- The matches of a text are tiles of it, and the stretch after them is not empty. -/
structure Tiled (text : String) (c : Cursor) (found : List Token) (gap : Option Extent) : Prop where
  tiles : Tiles c.offset found (stopOf text gap)
  covers : ∀ t ∈ found, Covers text t
  texts : found.flatMap (·.text.toList) ++ Text.dropBytes (stopOf text gap) text.toList = c.rest
  gap : ∀ g ∈ gap, g.start < g.stop ∧ g.Within text

theorem Reads.tiled {text : String} {found : List Token} {gap : Option Extent}
    (h : Reads rules c found gap) (hc : (Cursor.start text).Reaches c) : Tiled text c found gap := by
  induction h with
  | @stop c _ =>
    have hlength : c.offset + Text.byteLength c.rest = Text.byteLength text.toList := by
      simpa [Cursor.start] using hc.offset_add_byteLength
    split
    · rename_i hempty
      rw [List.isEmpty_iff.1 hempty, Text.byteLength, Nat.add_zero] at hlength
      refine ⟨hlength, by simp, ?_, by simp⟩
      rw [stopOf, Option.map_none, Option.getD_none, ← hlength]
      simpa using dropBytes_of_reaches hc
    · rename_i hrest
      refine ⟨rfl, by simp, by simpa [stopOf] using dropBytes_of_reaches hc, fun g hg => ?_⟩
      cases hg
      have hpos : 0 < Text.byteLength c.rest := Text.byteLength_pos (by simpa using hrest)
      refine ⟨Nat.lt_add_of_pos_right hpos, Nat.le_add_right _ _, isBoundary_of_reaches hc, ?_⟩
      rw [hlength]
      simpa using Text.isBoundary_append text.toList []
  | @gap c d m next lt =>
    refine ⟨rfl, by simp, by simpa [stopOf] using dropBytes_of_reaches hc, fun g hg => ?_⟩
    cases hg
    exact ⟨lt, lt.le, isBoundary_of_reaches hc, isBoundary_of_reaches (hc.trans next.reaches)⟩
  | @step c m found gap next _ ih =>
    obtain ⟨hstop, hlt⟩ := next.reaches_stop
    obtain ⟨htiles, hcovers, htexts, hgap⟩ := ih (hc.trans hstop)
    obtain ⟨passed, hrest, -⟩ := hstop.exists_passed
    refine ⟨⟨rfl, hlt, htiles⟩,
      List.forall_mem_cons.2 ⟨covers_of_reaches hc hstop m.rule, hcovers⟩, ?_, hgap⟩
    rw [List.flatMap_cons, List.append_assoc, htexts, textBetween_eq hrest, String.toList_ofList, hrest]

/-- A text is cut into matches as its rules read it: at the first place where a rule takes some of it,
the first such rule takes what its own pattern matches, and a stretch before that place or up to the end
is the gap. The tokens are the matches of rules that are not ignored; the matches of all rules follow
one another from the start of the text to its gap or its end, and leave none of it out. -/
theorem scan_by_first_rules {rules : List Rule} {s : Scanner} (made : make? rules = .ok s)
    (agrees : s.Agrees) (text : String) :
    ∃ found, Reads rules (.start text) found (s.scan text).gap? ∧
      (s.scan text).tokens = (found.filter fun t => !rules[t.rule]?.any (·.ignored)) ∧
      Tiled text (.start text) found (s.scan text).gap? := by
  obtain ⟨found, hreads, htokens⟩ := reads_scanFrom made agrees (.start text)
  exact ⟨found, hreads, htokens, hreads.tiled .refl⟩

/-- A rule that can match the empty text, blanks, and a rule for what the first rule takes as well. -/
def letterRules : List Rule := [.terminal "A" "a*", .ignoring "BLANK" " +", .terminal "LETTER" "[ab]"]

/-- The empty match before the `b` does not count, the `a` goes to the former of two rules that take it, and
no rule takes the letter at the end, which has two bytes. -/
theorem scan_by_first_rules_letters : ∃ s, make? letterRules = .ok s ∧ s.Agrees ∧
    s.scan "b a é" = ⟨[⟨2, "b", ⟨0, 1⟩⟩, ⟨0, "a", ⟨2, 3⟩⟩], some ⟨4, 6⟩⟩ ∧
    ∃ found, Reads letterRules (.start "b a é") found (some ⟨4, 6⟩) ∧
      (found.filter fun t => !letterRules[t.rule]?.any (·.ignored)) =
        [⟨2, "b", ⟨0, 1⟩⟩, ⟨0, "a", ⟨2, 3⟩⟩] ∧
      Tiled "b a é" (.start "b a é") found (some ⟨4, 6⟩) := by
  have hscan : (make? letterRules).toOption.map (·.scan "b a é") =
      some ⟨[⟨2, "b", ⟨0, 1⟩⟩, ⟨0, "a", ⟨2, 3⟩⟩], some ⟨4, 6⟩⟩ := by decide +kernel
  have hown : OwnBranches letterRules := by decide +kernel
  obtain ⟨s, made, hs⟩ := Option.map_eq_some_iff.1 hscan
  have made := toOption_eq_some.1 made
  have agrees := agrees_of_ownBranches made hown
  obtain ⟨found, hreads, htokens, htiled⟩ := scan_by_first_rules made agrees "b a é"
  rw [hs] at hreads htokens htiled
  exact ⟨s, made, agrees, hs, found, hreads, htokens.symm, htiled⟩

/-- Two rules, of which the former ends in a comment. -/
def commentRules : List Rule := [.terminal "A" "(?x)a#", .terminal "B" "b\n"]

/-- The comment goes on through the latter rule, and the scanner does not find what that rule takes. -/
theorem not_reads_comment : ∃ s, make? commentRules = .ok s ∧ s.scan "b\n" = ⟨[], some ⟨0, 2⟩⟩ ∧
    ¬ ∃ found, Reads commentRules (.start "b\n") found (s.scan "b\n").gap? := by
  have hscan : (make? commentRules).toOption.map (·.scan "b\n") = some ⟨[], some ⟨0, 2⟩⟩ := by
    decide +kernel
  have htaken : (taken? (.terminal "B" "b\n") (.start "b\n")).isSome = true := by decide +kernel
  obtain ⟨s, made, hs⟩ := Option.map_eq_some_iff.1 hscan
  refine ⟨s, toOption_eq_some.1 made, hs, ?_⟩
  rintro ⟨found, h⟩
  generalize hgap : (s.scan "b\n").gap? = gap at h
  rw [hs] at hgap
  have huntaken {d : Cursor} (h : ∀ r ∈ commentRules, taken? r d = none)
      (hd : d = .start "b\n") : False := by
    rw [← hd, h _ (by simp [commentRules])] at htaken
    cases htaken
  cases h with
  | stop untaken => exact huntaken (untaken _ .refl) rfl
  | gap next lt => exact huntaken (next.least _ .refl lt) rfl
  | step next rest =>
    obtain ⟨hstop, hlt⟩ := next.reaches_stop
    have hle := (rest.tiled hstop).tiles.start_le
    rw [← hgap] at hle
    exact absurd hle hlt.not_ge

end Scanner

end Parlance
