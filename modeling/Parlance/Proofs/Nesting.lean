import Mathlib.Data.List.Induction
import Parlance.Proofs.Acceptance

/-!
# Brackets and delimiters

`Grammar.depth?` counts the brackets that are open after some tokens, whatever their rules; it gives the
pairs of brackets in a text and the delimiters directly inside of them. What waits in a parse is what the
tokens that were read leave over (`Grammar.Leaves`). A parse succeeds only if nothing is left over, and
where it blames a bracket or a delimiter, that is left over, or is a close bracket that has none
(`Misnested`).
-/

namespace Parlance

theorem append_cons_eq {α : Type} {as bs cs ds : List α} {a b : α} (h : as ++ a :: bs = cs ++ b :: ds) :
    (cs = as ∧ b = a ∧ ds = bs) ∨ (∃ es, cs = as ++ a :: es ∧ bs = es ++ b :: ds) ∨
      ∃ es, as = cs ++ b :: es ∧ ds = es ++ a :: bs := by
  rcases List.append_eq_append_iff.1 h with ⟨es, rfl, hes⟩ | ⟨es, rfl, hes⟩
  · rcases List.cons_eq_append_iff.1 hes with ⟨rfl, hes⟩ | ⟨es, rfl, rfl⟩
    · cases hes
      exact .inl ⟨List.append_nil as, rfl, rfl⟩
    · exact .inr (.inl ⟨es, rfl, rfl⟩)
  · rcases List.cons_eq_append_iff.1 hes with ⟨rfl, hes⟩ | ⟨es, rfl, rfl⟩
    · cases hes
      exact .inl ⟨(List.append_nil cs).symm, rfl, rfl⟩
    · exact .inr (.inr ⟨es, rfl, rfl⟩)

/-- Whether a token closes a bracket. -/
def RuleKind.isClose (k : RuleKind) : Bool := k matches bracketClose ..

namespace Grammar

variable {g : Grammar} {ts before inner after us vs ws ds : List Token} {t u c d o : Token} {n : Nat}

/-! ## Depth -/

/-- How many brackets are open after a token, if so many were before it. Where none is open, none can be
closed. -/
def depthAfter? (g : Grammar) (n : Nat) (t : Token) : Option Nat :=
  if (g.kind t.rule).isOpen then some (n + 1)
  else if (g.kind t.rule).isClose then if n = 0 then none else some (n - 1)
  else some n

/-- How many brackets are open after some tokens, unless more of them are closed than opened. -/
def depth? (g : Grammar) (ts : List Token) : Option Nat := ts.foldlM g.depthAfter? 0

/-- All brackets that are opened in some tokens are closed, and no others are. -/
abbrev Level (g : Grammar) (ts : List Token) : Prop := g.depth? ts = some 0

/-- A bracket and the close bracket that it is left for, in some tokens. -/
def Paired (g : Grammar) (ts : List Token) (o c : Token) : Prop :=
  ∃ before inner after, ts = before ++ o :: inner ++ c :: after ∧ g.Level inner ∧
    (g.kind o.rule).isOpen = true ∧ (g.kind c.rule).isClose = true

/-- What stands between some tokens before and some after it is directly inside a pair of brackets. -/
def Inside (g : Grammar) (before after : List Token) (o c : Token) : Prop :=
  ∃ outer left right rest, before = outer ++ o :: left ∧ after = right ++ c :: rest ∧
    g.Level left ∧ g.Level right ∧
    (g.kind o.rule).isOpen = true ∧ (g.kind c.rule).isClose = true

theorem depthAfter?_of_isClose (h : (g.kind c.rule).isClose = true) :
    g.depthAfter? n c = if n = 0 then none else some (n - 1) := by
  have hopen : (g.kind c.rule).isOpen = false := by
    cases hk : g.kind c.rule <;> simp_all [RuleKind.isClose, RuleKind.isOpen]
  rw [depthAfter?, hopen, h]
  rfl

theorem depth?_append (g : Grammar) (ts us : List Token) :
    g.depth? (ts ++ us) = (g.depth? ts).bind fun n => us.foldlM g.depthAfter? n :=
  List.foldlM_append

theorem depth?_concat (g : Grammar) (ts : List Token) (t : Token) :
    g.depth? (ts ++ [t]) = (g.depth? ts).bind (g.depthAfter? · t) := by
  rw [depth?_append]
  simp

theorem Level.depth?_close (h : g.Level ts) (hc : (g.kind c.rule).isClose = true) :
    g.depth? (ts ++ c :: us) = none := by
  rw [depth?_append, show g.depth? ts = _ from h, Option.bind_some, List.foldlM_cons,
    depthAfter?_of_isClose hc]
  rfl

/-- Where more brackets are closed than opened, there is a first that closes none of them. -/
theorem exists_of_depth?_eq_none (h : g.depth? ts = none) :
    ∃ right c rest, ts = right ++ c :: rest ∧ g.Level right ∧ (g.kind c.rule).isClose = true := by
  induction ts using List.reverseRecOn with
  | nil => cases h
  | append_singleton ts t ih =>
    cases hdepth : g.depth? ts with
    | none =>
      obtain ⟨right, c, rest, rfl, hright, hc⟩ := ih hdepth
      exact ⟨right, c, rest ++ [t], by simp, hright, hc⟩
    | some n =>
      rw [depth?_concat, hdepth, Option.bind_some] at h
      cases hclose : (g.kind t.rule).isClose with
      | false => grind [depthAfter?]
      | true =>
        rw [depthAfter?_of_isClose hclose] at h
        obtain rfl : n = 0 := by by_contra hn; rw [if_neg hn] at h; cases h
        exact ⟨ts, t, [], rfl, hdepth, hclose⟩

/-- That first close bracket is one only. -/
theorem Level.eq_of_append {right rest : List Token} (h : g.Level inner)
    (hc : (g.kind c.rule).isClose = true) (hright : g.Level right)
    (hd : (g.kind d.rule).isClose = true) (heq : inner ++ c :: after = right ++ d :: rest) :
    inner = right ∧ c = d := by
  rcases List.append_eq_append_iff.1 heq with ⟨ys, rfl, hys⟩ | ⟨ys, rfl, hys⟩
  · cases ys with
    | nil => exact ⟨by simp, by simpa using congrArg List.head? hys⟩
    | cons y ys =>
      obtain ⟨rfl, rfl⟩ := List.cons.inj hys
      cases (h.depth?_close hc).symm.trans hright
  · cases ys with
    | nil => exact ⟨by simp, by simpa using (congrArg List.head? hys).symm⟩
    | cons y ys =>
      obtain ⟨rfl, rfl⟩ := List.cons.inj hys
      cases (hright.depth?_close hd).symm.trans h

/-! ## Left-over brackets and delimiters -/

/-- Whether a token is left over until a bracket closes. -/
def isLeft (g : Grammar) (t : Token) : Bool :=
  (g.kind t.rule).isOpen || (g.kind t.rule).isDelimiter

/-- How many of the tokens open a bracket. -/
def openCount (g : Grammar) (us : List Token) : Nat := us.countP fun t => (g.kind t.rule).isOpen

/-- The brackets and delimiters that tokens leave over, the last in front. A close bracket takes its
delimiters and then its bracket from them. -/
inductive Leaves (g : Grammar) : List Token → List Token → Prop
  | start : Leaves g [] []
  | skips {ts us : List Token} {t : Token} (read : Leaves g ts us) (kind : g.isLeft t = false)
      (other : (g.kind t.rule).isClose = false) : Leaves g (ts ++ [t]) us
  | waits {ts us : List Token} {t : Token} (read : Leaves g ts us) (kind : g.isLeft t = true) :
      Leaves g (ts ++ [t]) (t :: us)
  | closes {ts ds us : List Token} {o c : Token} (read : Leaves g ts (ds ++ o :: us))
      (separates : ∀ d ∈ ds, g.Separates c d) (closes : g.Closes c o) : Leaves g (ts ++ [c]) us

theorem Closes.isClose (h : g.Closes c o) : (g.kind c.rule).isClose = true := by
  obtain ⟨opens, delimiter, hk, -⟩ := h
  rw [hk]
  rfl

theorem not_isOpen_of_isDelimiter (h : (g.kind d.rule).isDelimiter = true) :
    (g.kind d.rule).isOpen = false := by
  cases hk : g.kind d.rule <;> simp_all [RuleKind.isDelimiter, RuleKind.isOpen]

theorem not_isClose_of_isLeft (h : g.isLeft t = true) : (g.kind t.rule).isClose = false := by
  unfold isLeft at h
  cases hk : g.kind t.rule <;> simp_all [RuleKind.isDelimiter, RuleKind.isOpen, RuleKind.isClose]

theorem not_isLeft_of_isClose (h : (g.kind t.rule).isClose = true) : g.isLeft t = false := by
  by_contra hleft
  rw [not_isClose_of_isLeft (by simpa using hleft)] at h
  cases h

theorem openCount_append (g : Grammar) (us vs : List Token) :
    g.openCount (us ++ vs) = g.openCount us + g.openCount vs :=
  List.countP_append

theorem openCount_cons (g : Grammar) (t : Token) (us : List Token) :
    g.openCount (t :: us) = g.openCount us + if (g.kind t.rule).isOpen then 1 else 0 :=
  List.countP_cons

theorem openCount_eq_zero (h : ∀ d ∈ ds, (g.kind d.rule).isDelimiter = true) :
    g.openCount ds = 0 := by
  refine List.countP_eq_zero.2 fun d hd => ?_
  rw [not_isOpen_of_isDelimiter (h d hd)]
  decide

/-- Of what a bracket closes, one opens a bracket. -/
theorem openCount_of_closes (hlinked : g.Linked) (hseparates : ∀ d ∈ ds, g.Separates c d)
    (hcloses : g.Closes c o) : g.openCount (ds ++ o :: us) = g.openCount us + 1 := by
  rw [openCount_append, openCount_cons, if_pos (hlinked.isOpen hcloses),
    openCount_eq_zero fun d hd => hlinked.isDelimiter (hseparates d hd), Nat.zero_add]

theorem depthAfter?_of_isLeft (h : g.isLeft t = true) :
    g.depthAfter? n t = some (n + if (g.kind t.rule).isOpen then 1 else 0) := by
  unfold depthAfter?
  rw [not_isClose_of_isLeft h]
  split <;> rfl

theorem depthAfter?_of_other (h : g.isLeft t = false) (hother : (g.kind t.rule).isClose = false) :
    g.depthAfter? n t = some n := by
  have hopen : (g.kind t.rule).isOpen = false := (Bool.or_eq_false_iff.1 h).1
  unfold depthAfter?
  rw [hopen, hother]
  rfl

namespace Leaves

/-- What was left over before the last token. -/
theorem of_concat (h : g.Leaves (ts ++ [t]) us) :
    (g.isLeft t = false ∧ (g.kind t.rule).isClose = false ∧ g.Leaves ts us) ∨
      (g.isLeft t = true ∧ ∃ vs, us = t :: vs ∧ g.Leaves ts vs) ∨
      ∃ ds o, g.Leaves ts (ds ++ o :: us) ∧ (∀ d ∈ ds, g.Separates t d) ∧ g.Closes t o := by
  generalize hread : ts ++ [t] = read at h
  cases h with
  | start => simp at hread
  | skips h hkind hother =>
    obtain ⟨rfl, rfl⟩ : _ ∧ _ := by simpa using hread
    exact .inl ⟨hkind, hother, h⟩
  | waits h hkind =>
    obtain ⟨rfl, rfl⟩ : _ ∧ _ := by simpa using hread
    exact .inr (.inl ⟨hkind, _, rfl, h⟩)
  | closes h hseparates hcloses =>
    obtain ⟨rfl, rfl⟩ : _ ∧ _ := by simpa using hread
    exact .inr (.inr ⟨_, _, h, hseparates, hcloses⟩)

theorem of_append (h : g.Leaves (ts ++ vs) us) : ∃ ws, g.Leaves ts ws := by
  induction vs using List.reverseRecOn generalizing us with
  | nil => exact ⟨us, by rwa [List.append_nil] at h⟩
  | append_singleton vs t ih =>
    rw [← List.append_assoc] at h
    obtain ⟨-, -, h⟩ | ⟨-, ws, -, h⟩ | ⟨ds, o, h, -⟩ := h.of_concat
    · exact ih h
    · exact ih h
    · exact ih h

variable (hlinked : g.Linked)

include hlinked

theorem depth?_eq (h : g.Leaves ts us) : g.depth? ts = some (g.openCount us) := by
  induction h with
  | start => rfl
  | skips _ hkind hother ih =>
    rw [depth?_concat, ih, Option.bind_some, depthAfter?_of_other hkind hother]
  | waits _ hkind ih =>
    rw [depth?_concat, ih, Option.bind_some, depthAfter?_of_isLeft hkind, openCount_cons]
  | @closes ts ds us o c _ hseparates hcloses ih =>
    rw [depth?_concat, ih, openCount_of_closes hlinked hseparates hcloses, Option.bind_some,
      depthAfter?_of_isClose hcloses.isClose]
    rfl

/-- The brackets left over in front of a token are those opened behind it. -/
theorem exists_of_left (h : g.Leaves ts (vs ++ u :: us)) :
    ∃ before inner, ts = before ++ u :: inner ∧ g.Leaves before us ∧
      g.depth? inner = some (g.openCount vs) := by
  generalize hws : vs ++ u :: us = ws at h
  induction h generalizing vs with
  | start => simp at hws
  | @skips ts _ t _ hkind hother ih =>
    obtain ⟨before, inner, rfl, hbefore, hinner⟩ := ih hws
    refine ⟨before, inner ++ [t], by simp, hbefore, ?_⟩
    rw [depth?_concat, hinner, Option.bind_some, depthAfter?_of_other hkind hother]
  | @waits ts _ t h hkind ih =>
    cases vs with
    | nil =>
      obtain ⟨rfl, rfl⟩ := List.cons.inj hws
      exact ⟨ts, [], rfl, h, rfl⟩
    | cons v vs =>
      obtain ⟨rfl, rfl⟩ := List.cons.inj hws
      obtain ⟨before, inner, rfl, hbefore, hinner⟩ := ih rfl
      refine ⟨before, inner ++ [v], by simp, hbefore, ?_⟩
      rw [depth?_concat, hinner, Option.bind_some, depthAfter?_of_isLeft hkind, openCount_cons]
  | @closes ts ds _ o c _ hseparates hcloses ih =>
    obtain ⟨before, inner, rfl, hbefore, hinner⟩ := @ih (ds ++ o :: vs) (by simp [← hws])
    refine ⟨before, inner ++ [c], by simp, hbefore, ?_⟩
    rw [depth?_concat, hinner, openCount_of_closes hlinked hseparates hcloses, Option.bind_some,
      depthAfter?_of_isClose hcloses.isClose]
    rfl

/-- A bracket or delimiter is left over as long as no more brackets are closed behind it than are opened
there. -/
theorem left_of_depth? (h : g.Leaves (before ++ u :: inner) ws) (hu : g.isLeft u = true)
    (hinner : g.depth? inner = some n) :
    ∃ vs us, ws = vs ++ u :: us ∧ g.openCount vs = n ∧ g.Leaves before us := by
  induction inner using List.reverseRecOn generalizing ws n with
  | nil =>
    cases hinner
    obtain ⟨hkind, -⟩ | ⟨-, us, rfl, hbefore⟩ | ⟨ds, o, -, -, hcloses⟩ := h.of_concat
    · rw [hu] at hkind
      cases hkind
    · exact ⟨[], us, rfl, rfl, hbefore⟩
    · rw [not_isLeft_of_isClose hcloses.isClose] at hu
      cases hu
  | append_singleton inner t ih =>
    rw [depth?_concat, Option.bind_eq_some_iff] at hinner
    obtain ⟨m, hinner, ht⟩ := hinner
    rw [← List.cons_append, ← List.append_assoc] at h
    obtain ⟨hkind, hother, hread⟩ | ⟨hkind, us, rfl, hread⟩ | ⟨ds, o, hread, hseparates, hcloses⟩ :=
      h.of_concat
    · rw [depthAfter?_of_other hkind hother] at ht
      cases ht
      exact ih hread hinner
    · rw [depthAfter?_of_isLeft hkind] at ht
      cases ht
      obtain ⟨vs, us', rfl, rfl, hbefore⟩ := ih hread hinner
      exact ⟨t :: vs, us', rfl, openCount_cons g t vs, hbefore⟩
    · obtain ⟨vs, us, hws, rfl, hbefore⟩ := ih hread hinner
      have hds := openCount_eq_zero fun d hd => hlinked.isDelimiter (hseparates d hd)
      rw [depthAfter?_of_isClose hcloses.isClose] at ht
      obtain ⟨rfl, -, -⟩ | ⟨vs, rfl, rfl⟩ | ⟨ds, rfl, -⟩ := append_cons_eq hws
      · rw [if_pos hds] at ht
        cases ht
      · refine ⟨vs, us, rfl, ?_, hbefore⟩
        rw [openCount_of_closes hlinked hseparates hcloses, if_neg (Nat.succ_ne_zero _)] at ht
        exact Option.some.inj ht
      · rw [openCount_append] at hds
        rw [if_pos (by omega)] at ht
        cases ht

/-- A close bracket takes the bracket that it is paired with. -/
theorem closes_of_level (h : g.Leaves (before ++ o :: inner ++ [c]) us)
    (ho : (g.kind o.rule).isOpen = true) (hinner : g.Level inner)
    (hc : (g.kind c.rule).isClose = true) : g.Closes c o := by
  obtain ⟨-, hother, -⟩ | ⟨hkind, -⟩ | ⟨ds, o', h, hseparates, hcloses⟩ := h.of_concat
  · rw [hc] at hother
    cases hother
  · rw [not_isLeft_of_isClose hc] at hkind
    cases hkind
  · have hleft : g.isLeft o = true := by rw [isLeft, ho, Bool.true_or]
    obtain ⟨vs, us', hws, hvs, -⟩ := h.left_of_depth? hlinked hleft hinner
    obtain ⟨-, rfl, -⟩ | ⟨vs, rfl, -⟩ | ⟨ds, rfl, -⟩ := append_cons_eq hws
    · exact hcloses
    · rw [openCount_append, openCount_cons, if_pos (hlinked.isOpen hcloses)] at hvs
      omega
    · have hdelimiter := hlinked.isDelimiter (hseparates o (by simp))
      rw [not_isOpen_of_isDelimiter hdelimiter] at ho
      cases ho

/-- A close bracket takes a delimiter with the bracket around it. -/
theorem separates_of_level (h : g.Leaves (before ++ d :: inner ++ [c]) us)
    (hd : (g.kind d.rule).isDelimiter = true) (hinner : g.Level inner)
    (hc : (g.kind c.rule).isClose = true) :
    g.Separates c d ∧ ∃ outer o left, before = outer ++ o :: left ∧ g.Level left ∧
      (g.kind o.rule).isOpen = true := by
  obtain ⟨-, hother, -⟩ | ⟨hkind, -⟩ | ⟨ds, o, h, hseparates, hcloses⟩ := h.of_concat
  · rw [hc] at hother
    cases hother
  · rw [not_isLeft_of_isClose hc] at hkind
    cases hkind
  · have hleft : g.isLeft d = true := by rw [isLeft, hd, Bool.or_true]
    have ho := hlinked.isOpen hcloses
    obtain ⟨vs, us', hws, hvs, hbefore⟩ := h.left_of_depth? hlinked hleft hinner
    obtain ⟨-, rfl, -⟩ | ⟨vs, rfl, -⟩ | ⟨ds, rfl, rfl⟩ := append_cons_eq hws
    · rw [not_isOpen_of_isDelimiter hd] at ho
      cases ho
    · rw [openCount_append, openCount_cons, if_pos ho] at hvs
      omega
    · obtain ⟨outer, left, rfl, -, hdepth⟩ := hbefore.exists_of_left hlinked
      have hds : g.openCount ds = 0 := openCount_eq_zero fun d hd =>
        hlinked.isDelimiter (hseparates d (by simp [hd]))
      rw [hds] at hdepth
      exact ⟨hseparates d (by simp), outer, o, left, rfl, hdepth, ho⟩

/-- Where nothing is left over, every close bracket may close the bracket that it is paired with. -/
theorem closes_of_paired (h : g.Leaves ts []) (hpaired : g.Paired ts o c) : g.Closes c o := by
  obtain ⟨before, inner, after, rfl, hinner, ho, hc⟩ := hpaired
  rw [List.append_cons] at h
  obtain ⟨us, hus⟩ := h.of_append
  exact hus.closes_of_level hlinked ho hinner hc

/-- Where nothing is left over, every delimiter is directly inside a pair of brackets, and is the
delimiter of the one that closes. -/
theorem inside_of_isDelimiter (h : g.Leaves (before ++ d :: after) [])
    (hd : (g.kind d.rule).isDelimiter = true) :
    ∃ o c, g.Inside before after o c ∧ g.Separates c d := by
  have hdepth : g.depth? after = none := by
    cases hdepth : g.depth? after with
    | none => rfl
    | some n =>
      have hleft : g.isLeft d = true := by rw [isLeft, hd, Bool.or_true]
      obtain ⟨vs, us, hnil, -⟩ := h.left_of_depth? hlinked hleft hdepth
      simp at hnil
  obtain ⟨right, c, rest, rfl, hright, hc⟩ := exists_of_depth?_eq_none hdepth
  rw [← List.cons_append, ← List.append_assoc, List.append_cons] at h
  obtain ⟨us, hus⟩ := h.of_append
  obtain ⟨hseparates, outer, o, left, rfl, hleft, ho⟩ := hus.separates_of_level hlinked hd hright hc
  exact ⟨o, c, ⟨outer, left, right, rest, rfl, rfl, hleft, hright, ho, hc⟩, hseparates⟩

end Leaves

/-! ## What waits in a parse -/

/-- The brackets and delimiters among what waits. -/
def left (g : Grammar) (operators : List Activation) : List Token :=
  (operators.map Activation.token).filter g.isLeft

theorem left_cons (g : Grammar) (a : Activation) (operators : List Activation) :
    g.left (a :: operators) =
      if g.isLeft a.token then a.token :: g.left operators else g.left operators := by
  rw [left, List.map_cons, List.filter_cons]
  rfl

theorem not_isLeft_of_operator {positions : List Side} {precedence : Option Int}
    {build : OperatorBuilder} (h : g.kind t.rule = .operator positions precedence build) :
    g.isLeft t = false := by
  rw [isLeft, h]
  rfl

theorem not_isLeft_of_isInert (h : (g.kind t.rule).isInert = true) : g.isLeft t = false := by
  unfold isLeft
  cases hk : g.kind t.rule <;> simp_all [RuleKind.isInert, RuleKind.isOpen, RuleKind.isDelimiter]

end Grammar

namespace Trace

variable {g : Grammar} {s s' : Trace} {t : Token} {ts : List Token}

theorem left_of_reduced {top : Pending} {below : List Pending} {operands results : List Derived}
    (h : Reduced g top below operands results) :
    g.left ((top :: below).map Pending.activation) = g.left (below.map Pending.activation) := by
  have htop : g.isLeft top.token = false := by
    cases h with
    | operation kind => exact Grammar.not_isLeft_of_operator kind
    | inert kind => exact Grammar.not_isLeft_of_isInert kind
  rw [List.map_cons, Grammar.left_cons, htop]
  rfl

theorem left_of_fold {folds : RuleKind → Bool} (h : s.fold g folds = some s') :
    g.left s'.state.operators = g.left s.state.operators :=
  @foldWhile_induction g folds
    (fun operators _ => g.left (operators.map Pending.activation) = g.left s.state.operators)
    (fun hleft hr => (left_of_reduced hr).symm.trans hleft) _ _ _ _ rfl (fold_eq_some.1 h).2

theorem left_of_unwind {links : BracketLinks} {previous : Extent} {operators : List Pending}
    {operands : List Derived} {u : Unwound}
    (hu : unwind g links previous [] [] operators operands = some u) :
    links.opens.contains u.top.rule = true ∧ ∃ ds,
      g.left (operators.map Pending.activation) =
        ds ++ g.left ((u.top :: u.operators).map Pending.activation) ∧
      ∀ d ∈ ds, links.delimiter = some d.rule := by
  have hunwound := @unwind_induction g links (fun _ _ _ waiting _ => ∃ ds,
    g.left (operators.map Pending.activation) = ds ++ g.left (waiting.map Pending.activation) ∧
      ∀ d ∈ ds, links.delimiter = some d.rule) ?_ ?_ _ _ _ _ _ _ ⟨[], rfl, by simp⟩ hu
  · obtain ⟨hopens, -, -, -, hleft, -⟩ := hunwound
    exact ⟨hopens, hleft⟩
  · rintro _ _ _ top below _ _ ⟨ds, hds, hlinks⟩ hr
    exact ⟨ds, by rw [hds, left_of_reduced hr], hlinks⟩
  · rintro _ _ _ top below _ _ hlink - - ⟨ds, hds, hlinks⟩
    rw [List.map_cons, Grammar.left_cons] at hds
    split at hds
    · exact ⟨ds ++ [top.token], by simp [hds],
        List.forall_mem_append.2 ⟨hlinks, List.forall_mem_singleton.2 hlink⟩⟩
    · exact ⟨ds, hds, hlinks⟩

theorem leaves_closed (hlinked : g.Linked) {opens : List String} {delimiter : Option String}
    (kind : g.kind t.rule = .bracketClose opens delimiter) (h : g.Leaves ts (g.left s.state.operators))
    (hclosed : Closed g s t s') : g.Leaves (ts ++ [t]) (g.left s'.state.operators) := by
  obtain ⟨u, hu, hs'⟩ : ∃ u, unwind g (g.linksOf t.rule) t.extent [] [] s.operators s.operands = some u ∧
      s'.operators = u.operators := by
    cases hclosed with
    | call unwound => exact ⟨_, unwound, rfl⟩
    | collection unwound => exact ⟨_, unwound, rfl⟩
    | bracket unwound => exact ⟨_, unwound, rfl⟩
  obtain ⟨hopens, ds, hds, hlinks⟩ := left_of_unwind hu
  have hcloses := (@Grammar.Linked.closes g hlinked t u.top.token _ _ kind).1 hopens
  have htop : g.isLeft u.top.token = true := by
    rw [Grammar.isLeft, hlinked.isOpen hcloses, Bool.true_or]
  rw [List.map_cons, Grammar.left_cons, if_pos htop] at hds
  rw [show g.left s.state.operators = _ from hds] at h
  rw [show s'.state.operators = _ from congrArg (List.map Pending.activation) hs']
  exact .closes h (fun d hd => (hlinked.separates kind).1 (hlinks d hd)) hcloses

/-- What waits in a parse is what the tokens that were read leave over. -/
theorem leaves_of_applyAll (hlinked : g.Linked) {parameters : List Parameter}
    (h : (start parameters).applyAll g ts = some s) : g.Leaves ts (g.left s.state.operators) := by
  refine @applyAll_induction g (fun read s => g.Leaves read (g.left s.state.operators)) ?_ _ _ _ []
    .start h
  intro read s t s' hread hstep
  cases hstep with
  | skip kind => exact .skips hread (by rw [Grammar.isLeft, kind]; rfl) (by rw [kind]; rfl)
  | operand kind => exact .skips hread (by rw [Grammar.isLeft, kind]; rfl) (by rw [kind]; rfl)
  | @waits folds s' kind folded =>
    rw [← left_of_fold folded] at hread
    change g.Leaves (read ++ [t]) (g.left (⟨t, none⟩ :: s'.state.operators))
    rw [Grammar.left_cons]
    split
    · rename_i hleft
      exact .waits hread hleft
    · rename_i hleft
      refine .skips hread (Bool.eq_false_iff.2 hleft) ?_
      cases hk : g.kind t.rule <;> simp_all [RuleKind.isInert, RuleKind.isClose]
  | @named s' kind named =>
    have hleft : g.left s'.state.operators = g.left s.state.operators := by
      cases named with
      | intro operators =>
        rw [state, state, operators, List.map_cons, List.map_cons, Grammar.left_cons,
          Grammar.left_cons]
    rw [hleft]
    exact .skips hread (by rw [Grammar.isLeft, kind]; rfl) (by rw [kind]; rfl)
  | closed kind closed => exact leaves_closed hlinked kind hread closed

end Trace

/-! ## What an error blames -/

/-- Whether an error is about how brackets and delimiters are nested. -/
def Fault.isNesting (f : Fault) : Bool := f matches bracketUnmatched | delimiterOutsideBrackets

/-- No bracket and no delimiter is blamed. -/
def Unnested {α : Type} (x : Except ParseError α) : Prop :=
  ∀ e, x = .error e → e.fault.isNesting = false

namespace Unnested

variable {α β : Type} {extent : Extent}

theorem ok (a : α) : Unnested (.ok a : Except ParseError α) := by
  rintro e ⟨⟩

theorem fail {fault : Fault} (h : fault.isNesting = false) :
    Unnested (extent.fail fault : Except ParseError α) := by
  rintro e ⟨⟩
  exact h

theorem fail_bind {fault : Fault} {f : α → Except ParseError β} (h : fault.isNesting = false) :
    Unnested (extent.fail fault >>= f) := by
  rintro e ⟨⟩
  exact h

theorem checked (r : Except Refusal α) : Unnested (extent.checked r) := by
  cases r with
  | error refusal => exact fail rfl
  | ok a => exact ok a

theorem bind {x : Except ParseError α} {f : α → Except ParseError β} (hx : Unnested x)
    (hf : ∀ a, Unnested (f a)) : Unnested (x >>= f) := by
  cases x with
  | error e =>
    rintro e' ⟨⟩
    exact hx e rfl
  | ok a => exact hf a

end Unnested

theorem unnested_takeOperands (op : Extent) (positions : List Side) (boundary : Nat)
    (operands : List Operand) : Unnested (takeOperands op positions boundary operands) := by
  unfold takeOperands
  dsimp only
  split
  · exact .fail rfl
  split
  · exact .fail rfl
  split
  · exact .fail rfl
  · exact .ok _

theorem unnested_convertArgs (operands : List Operand) (types : List ValueType) :
    Unnested (convertArgs operands types) := by
  induction operands generalizing types with
  | nil => exact .ok _
  | cons operand operands ih =>
    cases types with
    | nil => exact .ok _
    | cons type types =>
      unfold convertArgs
      split
      · exact (ih types).bind fun _ => .ok _
      · exact .ok _
      · exact .fail rfl
      · exact .fail rfl

theorem unnested_callFirst (contents : List Operand) (opening args : Extent) (single : Bool)
    (candidates : List Overload) : Unnested (callFirst contents opening args single candidates) := by
  induction candidates with
  | nil => exact .fail rfl
  | cons o candidates ih =>
    have hconvert : Unnested (o.convert contents) := by
      unfold Overload.convert
      split
      · exact unnested_convertArgs _ _
      · exact .ok _
    refine hconvert.bind fun result => ?_
    split
    · exact .checked _
    split
    · exact .fail rfl
    · exact ih

theorem unnested_callFunction (overloads : List Overload) (contents : List Operand)
    (opening close : Extent) : Unnested (callFunction overloads contents opening close) := by
  unfold callFunction
  dsimp only
  split
  · exact .fail rfl
  · exact (unnested_callFirst _ _ _ _ _).bind fun _ => .ok _

theorem unnested_takeSource (opening : Extent) (operands : List Operand) :
    Unnested (takeSource opening operands) := by
  unfold takeSource
  split
  · split
    · exact .ok _
    · exact .fail rfl
  · exact .fail rfl

theorem unnested_applyContents (g : Grammar) (s : ParseState) (top : Activation)
    (contents : List Operand) (close : Extent) :
    Unnested (s.applyContents g top contents close) := by
  unfold ParseState.applyContents
  split
  · exact (unnested_callFunction _ _ _ _).bind fun _ => .ok _
  · dsimp only
    split
    · exact .fail_bind rfl
    · refine (unnested_takeSource _ _).bind fun source => ?_
      split
      · exact .fail_bind rfl
      · exact (Unnested.checked _).bind fun _ => .ok _
  · refine Unnested.bind ?_ fun _ => .ok _
    unfold singleContent
    split
    · exact .fail rfl
    · exact .ok _
    · exact .fail rfl

theorem unnested_declareAccessor (g : Grammar) (s : ParseState) (t : Token) :
    Unnested (s.declareAccessor g t) := by
  have hsource : Unnested (s.accessorSource g t) := by
    unfold ParseState.accessorSource
    split
    · exact .fail rfl
    · dsimp only
      generalize (_ || _ : Bool) = misplaced
      cases misplaced with
      | true => exact .fail rfl
      | false => exact (unnested_takeSource _ _).bind fun _ => .ok _
  refine hsource.bind fun _ => ?_
  split
  split
  · exact .fail rfl
  · dsimp only
    split
    · exact .fail rfl
    · exact .ok _

section Blames

variable {g : Grammar} {e : ParseError} {top : Activation} {operators below : List Activation}
  {operands contents : List Operand} {ts : List Token} {u : Token}

/-- An error blames a bracket or a delimiter. -/
def Blames (g : Grammar) (u : Token) (e : ParseError) : Prop :=
  e.extent = u.extent ∧
    (e.fault = .bracketUnmatched ∧ (g.kind u.rule).isOpen = true ∨
      e.fault = .delimiterOutsideBrackets ∧ (g.kind u.rule).isDelimiter = true)

theorem Blames.isLeft (h : Blames g u e) : g.isLeft u = true := by
  obtain ⟨-, ⟨-, hk⟩ | ⟨-, hk⟩⟩ := h
  · rw [Grammar.isLeft, hk, Bool.true_or]
  · rw [Grammar.isLeft, hk, Bool.or_true]

theorem left_of_reduce {results : List Operand} (h : reduce g top below operands = .ok results) :
    g.left (top :: below) = g.left below := by
  have htop : g.isLeft top.token = false := by
    cases reduce_eq_ok.1 h with
    | operation kind => exact Grammar.not_isLeft_of_operator kind
    | inert kind => exact Grammar.not_isLeft_of_isInert kind
  rw [Grammar.left_cons, htop]
  rfl

theorem blames_of_reduce (h : reduce g top below operands = .error e)
    (hn : e.fault.isNesting = true) : Blames g top.token e := by
  unfold reduce at h
  split at h
  · refine absurd hn (Bool.eq_false_iff.1 (Unnested.bind ?_ (fun args => ?_) e h))
    · exact unnested_takeOperands _ _ _ _
    · exact (Unnested.checked _).bind fun _ => .ok _
  · rename_i hk
    cases h
    exact ⟨rfl, .inl ⟨rfl, by rw [hk]; rfl⟩⟩
  · rename_i hk
    cases h
    exact ⟨rfl, .inl ⟨rfl, by rw [hk]; rfl⟩⟩
  · rename_i hk
    cases h
    exact ⟨rfl, .inl ⟨rfl, by rw [hk]; rfl⟩⟩
  · rename_i hk
    cases h
    exact ⟨rfl, .inr ⟨rfl, by rw [hk]; rfl⟩⟩
  · cases h

/-- Reductions blame the last that is left over. -/
theorem blames_of_foldWhile {folds : RuleKind → Bool}
    (h : foldWhile g folds operators operands = .error e) (hn : e.fault.isNesting = true) :
    ∃ u us, g.left operators = u :: us ∧ folds (g.kind u.rule) = true ∧ Blames g u e := by
  induction operators generalizing operands with
  | nil => cases h
  | cons top below ih =>
    unfold foldWhile at h
    split at h
    · rename_i hfolds
      cases hr : reduce g top below operands with
      | error e' =>
        rw [hr] at h
        cases h
        have hblames := blames_of_reduce hr hn
        exact ⟨top.token, g.left below, by rw [Grammar.left_cons, if_pos hblames.isLeft], hfolds,
          hblames⟩
      | ok results =>
        rw [hr] at h
        rw [left_of_reduce hr]
        exact ih h
    · cases h

/-- A close bracket blames the last that is left over and is no delimiter of its own, or itself if there
is none. -/
theorem blames_of_unwind {links : BracketLinks} {close previous : Extent} {separated : Bool}
    (h : unwind g links close previous separated contents operators operands = .error e)
    (hn : e.fault.isNesting = true) :
    (∀ d ∈ g.left operators, links.delimiter = some d.rule) ∧ e = ⟨close, .bracketUnmatched⟩ ∨
      ∃ ds u us, g.left operators = ds ++ u :: us ∧ (∀ d ∈ ds, links.delimiter = some d.rule) ∧
        links.opens.contains u.rule = false ∧ links.delimiter ≠ some u.rule ∧ Blames g u e := by
  induction operators generalizing previous separated contents operands with
  | nil =>
    cases h
    exact .inl ⟨by simp [Grammar.left], rfl⟩
  | cons top below ih =>
    have hmissing : Unnested ((top.extent.gap previous).fail (.operandExpected (some top.extent)) :
      Except ParseError Unwound) := .fail rfl
    unfold unwind at h
    dsimp only at h
    split at h
    · split at h
      · cases h
      · split at h
        · rw [hmissing e h] at hn
          cases hn
        · cases h
    split at h
    · rename_i hdelimiter
      split at h
      · rename_i operand rest _
        rw [Grammar.left_cons]
        split
        · obtain ⟨hall, he⟩ | ⟨ds, u, us, hleft, hds, hblames⟩ := ih h
          · exact .inl ⟨List.forall_mem_cons.2 ⟨hdelimiter, hall⟩, he⟩
          · refine .inr ⟨top.token :: ds, u, us, ?_, List.forall_mem_cons.2 ⟨hdelimiter, hds⟩, hblames⟩
            rw [hleft, List.cons_append]
        · exact ih h
      · rw [hmissing e h] at hn
        cases hn
    · rename_i hopens hdelimiter
      cases hr : reduce g top below operands with
      | error e' =>
        rw [hr] at h
        cases h
        have hblames := blames_of_reduce hr hn
        refine .inr ⟨[], top.token, g.left below, ?_, by simp, by simpa using hopens, hdelimiter, hblames⟩
        rw [Grammar.left_cons, if_pos hblames.isLeft]
        rfl
      | ok results =>
        rw [hr] at h
        rw [left_of_reduce hr]
        exact ih h

end Blames

/-- How an error about brackets and delimiters comes about in a text: a close bracket finds no bracket,
or something before its bracket that is neither, or something is left over at the end. -/
inductive Misnested (l : Language) (scan : Scan) (e : ParseError) : Prop
  | noOpen {before after us : List Token} {c : Token} (tokens : scan.tokens = before ++ c :: after)
      (close : (l.grammar.kind c.rule).isClose = true) (left : l.grammar.Leaves before us)
      (separates : ∀ d ∈ us, l.grammar.Separates c d) (error : e = ⟨c.extent, .bracketUnmatched⟩)
  | mismatch {before after ds us : List Token} {c u : Token}
      (tokens : scan.tokens = before ++ c :: after)
      (close : (l.grammar.kind c.rule).isClose = true) (left : l.grammar.Leaves before (ds ++ u :: us))
      (separates : ∀ d ∈ ds, l.grammar.Separates c d) (not_closes : ¬ l.grammar.Closes c u)
      (not_separates : ¬ l.grammar.Separates c u) (blames : Blames l.grammar u e)
  | unclosed {us : List Token} {u : Token} (whole : scan.gap? = none)
      (left : l.grammar.Leaves scan.tokens (u :: us)) (blames : Blames l.grammar u e)

theorem ParseState.exists_of_applyAll_eq_error {g : Grammar} {s : ParseState} {ts : List Token}
    {e : ParseError} (h : s.applyAll g ts = .error e) :
    ∃ before t after s', ts = before ++ t :: after ∧ s.applyAll g before = .ok s' ∧
      s'.apply g t = .error e := by
  induction ts generalizing s with
  | nil => cases h
  | cons t ts ih =>
    cases ht : s.apply g t with
    | error e' =>
      rw [applyAll_cons, ht] at h
      cases h
      exact ⟨[], t, ts, s, rfl, rfl, ht⟩
    | ok s₁ =>
      rw [applyAll_cons, ht] at h
      obtain ⟨before, u, after, s', rfl, hs', hu⟩ := ih h
      refine ⟨t :: before, u, after, s', rfl, ?_, hu⟩
      rw [applyAll_cons, ht]
      exact hs'

namespace ParseState

variable {g : Grammar} {s : ParseState} {t : Token} {e : ParseError}

/-- Operators blame no bracket and no delimiter, since they are reduced only behind them. -/
theorem unnested_foldWhile {folds : RuleKind → Bool}
    (hfolds : ∀ k, folds k = true → k.isOpen = false ∧ k.isDelimiter = false) :
    Unnested (s.foldWhile g folds) := by
  refine Unnested.bind (fun e he => ?_) fun _ => .ok _
  by_contra hn
  obtain ⟨u, us, -, hu, -, hblames⟩ := blames_of_foldWhile he (by simpa using hn)
  obtain ⟨hopen, hdelimiter⟩ := hfolds _ hu
  rw [hopen, hdelimiter] at hblames
  simp at hblames

theorem operator_of_isSome {k : RuleKind} (h : k.precedence?.isSome = true) :
    k.isOpen = false ∧ k.isDelimiter = false := by
  cases k <;> first | exact ⟨rfl, rfl⟩ | cases h

/-- Of all tokens only a close bracket blames a bracket or a delimiter. -/
theorem unnested_apply (h : (g.kind t.rule).isClose = false) : Unnested (s.apply g t) := by
  unfold apply
  split
  · exact .ok _
  · exact (Unnested.checked _).bind fun _ => .ok _
  · dsimp only
    split
    · split
      · refine (unnested_foldWhile fun k hk => operator_of_isSome ?_).bind fun _ => .ok _
        cases hp : k.precedence? <;> simp_all [yieldsTo]
      · exact .ok _
    · exact .ok _
  · refine (unnested_foldWhile fun k hk => operator_of_isSome ?_).bind fun _ => .ok _
    exact (Bool.and_eq_true_iff.1 hk).1
  · exact .ok _
  · exact .ok _
  · exact .ok _
  · exact unnested_declareAccessor _ _ _
  · rename_i hk
    rw [hk] at h
    cases h

end ParseState

section Parses

variable {rules : List Rule} {l : Language} {text : String} {parameters : List Parameter}
  {e : ParseError} {s : ParseState} {before after ts : List Token} {c : Token}

theorem leaves_of_run (hlinked : l.grammar.Linked)
    (h : (ParseState.start parameters).applyAll l.grammar ts = .ok s) :
    l.grammar.Leaves ts (l.grammar.left s.operators) := by
  obtain ⟨r, hr, rfl⟩ := Trace.exists_of_applyAll h
  exact Trace.leaves_of_applyAll hlinked hr

/-- Where a close bracket brings up an error, the state before it tells what is blamed. -/
theorem misnested_of_close (hlinked : l.grammar.Linked)
    (htokens : (l.scanner.scan text).tokens = before ++ c :: after)
    (hc : (l.grammar.kind c.rule).isClose = true)
    (hs : l.grammar.Leaves before (l.grammar.left s.operators)) (h : s.apply l.grammar c = .error e)
    (hn : e.fault.isNesting = true) : Misnested l (l.scanner.scan text) e := by
  obtain ⟨opens, delimiter, hkind⟩ : ∃ opens delimiter,
      l.grammar.kind c.rule = .bracketClose opens delimiter := by
    cases hk : l.grammar.kind c.rule <;> simp_all [RuleKind.isClose]
  unfold ParseState.apply at h
  rw [hkind] at h
  cases hunwind : unwind l.grammar (l.grammar.linksOf c.rule) c.extent c.extent false []
      s.operators s.operands with
  | ok u =>
    rw [show s.close l.grammar c = _ from congrArg (· >>= _) hunwind] at h
    exact absurd hn (Bool.eq_false_iff.1 (unnested_applyContents _ _ _ _ _ e h))
  | error e' =>
    rw [show s.close l.grammar c = _ from congrArg (· >>= _) hunwind] at h
    cases h
    have hseparates {d : Token} (hd : (l.grammar.linksOf c.rule).delimiter = some d.rule) :
        l.grammar.Separates c d := (hlinked.separates hkind).1 hd
    obtain ⟨hall, rfl⟩ | ⟨ds, u, us, hleft, hds, hopens, hdelimiter, hblames⟩ :=
      blames_of_unwind hunwind hn
    · exact .noOpen htokens hc hs (fun d hd => hseparates (hall d hd)) rfl
    · refine .mismatch htokens hc (hleft ▸ hs) (fun d hd => hseparates (hds d hd))
        (fun hcloses => ?_) (fun hsep => hdelimiter ((hlinked.separates hkind).2 hsep)) hblames
      rw [(hlinked.closes hkind).2 hcloses] at hopens
      cases hopens

theorem misnested_of_finish (hgap : (l.scanner.scan text).gap? = none)
    (hs : l.grammar.Leaves (l.scanner.scan text).tokens (l.grammar.left s.operators))
    (h : s.finish l.grammar = .error e) (hn : e.fault.isNesting = true) :
    Misnested l (l.scanner.scan text) e := by
  cases hfold : foldWhile l.grammar (fun _ => true) s.operators s.operands with
  | error e' =>
    rw [ParseState.finish, ParseState.foldWhile, hfold] at h
    cases h
    obtain ⟨u, us, hleft, -, hblames⟩ := blames_of_foldWhile hfold hn
    exact .unclosed hgap (hleft ▸ hs) hblames
  | ok results =>
    rw [ParseState.finish, ParseState.foldWhile, hfold] at h
    refine absurd hn (Bool.eq_false_iff.1 (Unnested.bind (.ok _) (fun s => ?_) e h))
    split
    · exact .fail rfl
    · exact .ok _
    · exact .fail rfl

theorem misnested_of_parse (hlinked : l.grammar.Linked) (h : l.parse text parameters = .error e)
    (hn : e.fault.isNesting = true) : Misnested l (l.scanner.scan text) e := by
  change ((ParseState.start parameters).applyAll l.grammar (l.scanner.scan text).tokens >>= fun s =>
    Language.afterScan (l.scanner.scan text) >>= fun _ => s.finish l.grammar) = _ at h
  cases hrun : (ParseState.start parameters).applyAll l.grammar (l.scanner.scan text).tokens with
  | error e' =>
    rw [hrun] at h
    cases h
    obtain ⟨before, c, after, s, htokens, hs, hstep⟩ := ParseState.exists_of_applyAll_eq_error hrun
    cases hc : (l.grammar.kind c.rule).isClose with
    | false => exact absurd hn (Bool.eq_false_iff.1 (ParseState.unnested_apply hc e hstep))
    | true => exact misnested_of_close hlinked htokens hc (leaves_of_run hlinked hs) hstep hn
  | ok s =>
    rw [hrun] at h
    change (Language.afterScan (l.scanner.scan text) >>= fun _ => s.finish l.grammar) = _ at h
    unfold Language.afterScan at h
    split at h
    · cases h
      cases hn
    · exact misnested_of_finish ‹_› (leaves_of_run hlinked hrun) h hn

/-- Nothing is left over by what is an expression. -/
theorem leaves_of_parse (hlinked : l.grammar.Linked) {expr : Expr}
    (h : l.parse text parameters = .ok expr) :
    l.grammar.Leaves (l.scanner.scan text).tokens [] := by
  obtain ⟨s, hs, -, hfinish⟩ := Trace.parse_eq_ok.1 h
  obtain ⟨r, hr, rfl⟩ := Trace.exists_of_applyAll hs
  have hend := (Trace.expr_finish l.grammar r).trans (toOption_eq_some.2 hfinish)
  obtain ⟨x, hx, -⟩ := Option.map_eq_some_iff.1 hend
  obtain ⟨r', hfold, -⟩ := Option.bind_eq_some_iff.1 hx
  have hleaves := Trace.leaves_of_applyAll hlinked hr
  rw [← Trace.left_of_fold hfold, Trace.state, Trace.foldWhile_true (Trace.fold_eq_some.1 hfold).2]
    at hleaves
  exact hleaves

namespace Misnested

variable {scan : Scan}

/-- The bracket that is blamed. -/
theorem bracket (hlinked : l.grammar.Linked) (h : Misnested l scan e)
    (hfault : e.fault = .bracketUnmatched) :
    (∃ before o inner, e.extent = o.extent ∧ (l.grammar.kind o.rule).isOpen = true ∧
        l.grammar.Level inner ∧
        (scan.tokens = before ++ o :: inner ∧ scan.gap? = none ∨
          ∃ c after, scan.tokens = before ++ o :: inner ++ c :: after ∧
            (l.grammar.kind c.rule).isClose = true ∧ ¬ l.grammar.Closes c o)) ∨
      ∃ before c after, e.extent = c.extent ∧ (l.grammar.kind c.rule).isClose = true ∧
        l.grammar.Level before ∧ scan.tokens = before ++ c :: after := by
  have hopen {u : Token} (hblames : Blames l.grammar u e) : (l.grammar.kind u.rule).isOpen = true := by
    obtain ⟨-, ⟨-, ho⟩ | ⟨hother, -⟩⟩ := hblames
    · exact ho
    · cases hfault.symm.trans hother
  cases h with
  | @noOpen before after us c tokens close left separates error =>
    have hus := Grammar.openCount_eq_zero fun d hd => hlinked.isDelimiter (separates d hd)
    have hlevel := left.depth?_eq hlinked
    rw [hus] at hlevel
    exact .inr ⟨before, c, after, by rw [error], close, hlevel, tokens⟩
  | @mismatch _ after ds us c u tokens close left separates not_closes _ blames =>
    obtain ⟨before, inner, rfl, -, hinner⟩ := left.exists_of_left hlinked
    rw [Grammar.openCount_eq_zero fun d hd => hlinked.isDelimiter (separates d hd)] at hinner
    exact .inl ⟨before, u, inner, blames.1, hopen blames, hinner, .inr ⟨c, after, tokens, close, not_closes⟩⟩
  | @unclosed us u whole left blames =>
    obtain ⟨before, inner, tokens, -, hinner⟩ := @Grammar.Leaves.exists_of_left _ _ _ [] _ hlinked left
    exact .inl ⟨before, u, inner, blames.1, hopen blames, hinner, .inl ⟨tokens, whole⟩⟩

/-- The delimiter that is blamed. -/
theorem delimiter (hlinked : l.grammar.Linked) (h : Misnested l scan e)
    (hfault : e.fault = .delimiterOutsideBrackets) :
    ∃ before d after, e.extent = d.extent ∧ (l.grammar.kind d.rule).isDelimiter = true ∧
      scan.tokens = before ++ d :: after ∧
      ∀ o c, l.grammar.Inside before after o c → ¬ l.grammar.Separates c d := by
  have hdelimiter {u : Token} (hblames : Blames l.grammar u e) :
      (l.grammar.kind u.rule).isDelimiter = true := by
    obtain ⟨-, ⟨hother, -⟩ | ⟨-, hd⟩⟩ := hblames
    · cases hfault.symm.trans hother
    · exact hd
  cases h with
  | noOpen tokens close left separates error =>
    rw [error] at hfault
    cases hfault
  | @mismatch _ after ds us c u tokens close left separates _ not_separates blames =>
    obtain ⟨before, inner, rfl, -, hinner⟩ := left.exists_of_left hlinked
    rw [Grammar.openCount_eq_zero fun d hd => hlinked.isDelimiter (separates d hd)] at hinner
    refine ⟨before, u, inner ++ c :: after, blames.1, hdelimiter blames, by simp [tokens], ?_⟩
    -- The pair around the delimiter is closed by the bracket that brought up the error.
    rintro o c' ⟨-, -, right, rest, -, heq, -, hright, -, hc'⟩
    obtain ⟨-, rfl⟩ := Grammar.Level.eq_of_append hinner close hright hc' heq
    exact not_separates
  | @unclosed us u whole left blames =>
    obtain ⟨before, inner, tokens, -, hinner⟩ := @Grammar.Leaves.exists_of_left _ _ _ [] _ hlinked left
    refine ⟨before, u, inner, blames.1, hdelimiter blames, tokens, ?_⟩
    rintro o c' ⟨-, -, right, rest, -, rfl, -, hright, -, hc'⟩
    cases (hright.depth?_close hc').symm.trans hinner

end Misnested

/-- In what is an expression the brackets are paired, each with one that its close bracket may close, and
every delimiter is directly inside a pair that it is the delimiter of. A bracket that is blamed is the
last one open where the text ends or a close bracket may not close it, or else is a close bracket where
none is open; a delimiter that is blamed is not directly inside a pair that it is the delimiter of. -/
theorem brackets_nest (made : Language.make? rules = .ok l) (text : String)
    (parameters : List Parameter) :
    let g := l.grammar
    let scan := l.scanner.scan text
    (∀ expr, l.parse text parameters = .ok expr →
      g.Level scan.tokens ∧ (∀ o c, g.Paired scan.tokens o c → g.Closes c o) ∧
      ∀ before d after, scan.tokens = before ++ d :: after → (g.kind d.rule).isDelimiter = true →
        ∃ o c, g.Inside before after o c ∧ g.Separates c d) ∧
    ∀ e, l.parse text parameters = .error e →
      (e.fault = .bracketUnmatched →
        (∃ before o inner, e.extent = o.extent ∧ (g.kind o.rule).isOpen = true ∧ g.Level inner ∧
          (scan.tokens = before ++ o :: inner ∧ scan.gap? = none ∨
            ∃ c after, scan.tokens = before ++ o :: inner ++ c :: after ∧
              (g.kind c.rule).isClose = true ∧ ¬ g.Closes c o)) ∨
        ∃ before c after, e.extent = c.extent ∧ (g.kind c.rule).isClose = true ∧ g.Level before ∧
          scan.tokens = before ++ c :: after) ∧
      (e.fault = .delimiterOutsideBrackets →
        ∃ before d after, e.extent = d.extent ∧ (g.kind d.rule).isDelimiter = true ∧
          scan.tokens = before ++ d :: after ∧
          ∀ o c, g.Inside before after o c → ¬ g.Separates c d) := by
  have hlinked := linked_of_make? made
  refine ⟨fun expr h => ?_, fun e h => ⟨fun hfault => ?_, fun hfault => ?_⟩⟩
  · have hleaves := leaves_of_parse hlinked h
    refine ⟨hleaves.depth?_eq hlinked, fun o c => hleaves.closes_of_paired hlinked, ?_⟩
    intro before d after htokens hd
    rw [htokens] at hleaves
    exact hleaves.inside_of_isDelimiter hlinked hd
  · exact (misnested_of_parse hlinked h (by rw [hfault]; rfl)).bracket hlinked hfault
  · exact (misnested_of_parse hlinked h (by rw [hfault]; rfl)).delimiter hlinked hfault

end Parses

set_option maxRecDepth 100000 in
/-- A call with a bracket in it, a call that is not closed and a delimiter outside of the brackets. -/
theorem brackets_nest_sum :
    let l := Language.ofRules sumRules sumRules_fit
    let tokens (text : String) := (l.scanner.scan text).tokens
    l.grammar.Level (tokens "max(1,(2))") ∧
    (∃ e, l.parse "max((2)" [] = .error e ∧ ∃ t ∈ tokens "max((2)", e.extent = t.extent) ∧
    ∃ e before d after, l.parse "1,(2)" [] = .error e ∧ e.extent = d.extent ∧
      tokens "1,(2)" = before ++ d :: after ∧
      ∀ o c, l.grammar.Inside before after o c → ¬ l.grammar.Separates c d := by
  intro l tokens
  have made := make?_eq_ofRules sumRules_fit
  have hfails {text : String} {p : Fault → Bool}
      (h : (match l.parse text [] with | .error e => p e.fault | .ok _ => false) = true) :
      ∃ e, l.parse text [] = .error e ∧ p e.fault = true := by
    split at h
    · exact ⟨_, ‹_›, h⟩
    · cases h
  have haccept : (l.parse "max(1,(2))" []).toOption.isSome = true := by decide +kernel
  obtain ⟨expr, hexpr⟩ := Option.isSome_iff_exists.1 haccept
  obtain ⟨e, he, hfault⟩ := @hfails "max((2)" (fun f => f matches .bracketUnmatched) (by decide +kernel)
  obtain ⟨e', he', hfault'⟩ := @hfails "1,(2)" (fun f => f matches .delimiterOutsideBrackets)
    (by decide +kernel)
  have hfault : e.fault = .bracketUnmatched := by cases hf : e.fault <;> simp_all
  have hfault' : e'.fault = .delimiterOutsideBrackets := by cases hf : e'.fault <;> simp_all
  obtain ⟨before, d, after, hextent, -, htokens, hinside⟩ :=
    ((brackets_nest made "1,(2)" []).2 _ he').2 hfault'
  refine ⟨((brackets_nest made "max(1,(2))" []).1 _ (toOption_eq_some.1 hexpr)).1, ⟨e, he, ?_⟩,
    e', before, d, after, he', hextent, htokens, hinside⟩
  obtain ⟨before, o, inner, hextent, -, -, ⟨htokens, -⟩ | ⟨c, after, htokens, -⟩⟩ |
      ⟨before, c, after, hextent, -, -, htokens⟩ :=
    ((brackets_nest made "max((2)" []).2 _ he).1 hfault
  · exact ⟨o, by rw [show tokens _ = _ from htokens]; simp, hextent⟩
  · exact ⟨o, by rw [show tokens _ = _ from htokens]; simp, hextent⟩
  · exact ⟨c, by rw [show tokens _ = _ from htokens]; simp, hextent⟩

end Parlance
