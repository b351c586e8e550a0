import Parlance.Proofs.Trace

/-!
# The syntax of a grammar

`Grammar.Derives` is the context-free grammar that rules stand for when their operators take one operand
before, one after, or one on either side. `Derivation.Formed` says that a derivation follows the rules;
a list of tokens is an expression exactly if it is the tokens of such a derivation
(`derives_iff_formed`). Close brackets refer to the rules that they close and to their delimiter by
name, as the rules are written down.
-/

namespace Parlance

/-- Tokens that are not empty and follow one another from one offset to another. -/
def Ordered (start : Nat) : List Token → Nat → Prop
  | [], stop => start ≤ stop
  | t :: ts, stop => start ≤ t.extent.start ∧ t.extent.start < t.extent.stop ∧
      Ordered t.extent.stop ts stop

instance decidableOrdered (start : Nat) : (ts : List Token) → (stop : Nat) →
    Decidable (Ordered start ts stop)
  | [], stop => inferInstanceAs (Decidable (start ≤ stop))
  | t :: ts, stop =>
    have := decidableOrdered t.extent.stop ts stop
    inferInstanceAs (Decidable (_ ∧ _ ∧ _))

namespace Ordered

variable {start stop : Nat} {ts us : List Token} {t : Token}

theorem le (h : Ordered start ts stop) : start ≤ stop := by
  induction ts generalizing start with
  | nil => exact h
  | cons t ts ih =>
    have := ih h.2.2
    have := h.1
    have := h.2.1
    omega

theorem mono {start' stop' : Nat} (h : Ordered start ts stop) (hstart : start' ≤ start)
    (hstop : stop ≤ stop') : Ordered start' ts stop' := by
  induction ts generalizing start start' with
  | nil =>
    have : start ≤ stop := h
    exact (by omega : start' ≤ stop')
  | cons t ts ih => exact ⟨hstart.trans h.1, h.2.1, ih h.2.2 le_rfl⟩

theorem append_iff :
    Ordered start (ts ++ us) stop ↔ ∃ mid, Ordered start ts mid ∧ Ordered mid us stop := by
  induction ts generalizing start with
  | nil => exact ⟨fun h => ⟨start, le_rfl, h⟩, fun ⟨mid, h, h'⟩ => h'.mono h le_rfl⟩
  | cons t ts ih =>
    simp only [List.cons_append, Ordered, ih]
    constructor
    · rintro ⟨h₁, h₂, mid, h, h'⟩
      exact ⟨mid, ⟨h₁, h₂, h⟩, h'⟩
    · rintro ⟨mid, ⟨h₁, h₂, h⟩, h'⟩
      exact ⟨h₁, h₂, mid, h, h'⟩

theorem mem (h : Ordered start ts stop) (ht : t ∈ ts) :
    start ≤ t.extent.start ∧ t.extent.start < t.extent.stop ∧ t.extent.stop ≤ stop := by
  induction ts generalizing start with
  | nil => cases ht
  | cons u ts ih =>
    rcases List.mem_cons.1 ht with rfl | ht
    · exact ⟨h.1, h.2.1, h.2.2.le⟩
    · have := ih h.2.2 ht
      have := h.1
      have := h.2.1
      omega

theorem pairwise (h : Ordered start ts stop) :
    ts.Pairwise fun t u => t.extent.stop ≤ u.extent.start := by
  induction ts generalizing start with
  | nil => exact .nil
  | cons t ts ih => exact .cons (fun u hu => (h.2.2.mem hu).1) (ih h.2.2)

/-- Tokens stand in one order only. -/
theorem eq_of_perm {start' stop' : Nat} (h : Ordered start ts stop) (h' : Ordered start' us stop')
    (hperm : ts.Perm us) : ts = us := by
  refine hperm.eq_of_pairwise (fun t u ht hu htu hut => ?_) h.pairwise h'.pairwise
  have := (h.mem ht).2.1
  have := (h'.mem hu).2.1
  omega

end Ordered

/-! ## Rules of one operand on a side -/

/-- The positions of operators that stand before their operand, behind it, or between two. -/
def fixities : List (List Side) := [[.right], [.left], [.left, .right]]

namespace RuleKind

/-- Kinds for an expression without predicates over collections. -/
def Plain : RuleKind → Prop
  | operator positions _ _ => positions ∈ fixities
  | operand _ | bracketOpen | functionCall _ | bracketClose .. | listDelimiter => True
  | terminal | collectionBracket _ | collectionAccessor => False

instance : (k : RuleKind) → Decidable k.Plain
  | operator positions _ _ => inferInstanceAs (Decidable (positions ∈ fixities))
  | operand _ | bracketOpen | functionCall _ | bracketClose .. | listDelimiter =>
    inferInstanceAs (Decidable True)
  | terminal | collectionBracket _ | collectionAccessor => inferInstanceAs (Decidable False)

/-- Plain kinds whose builders never refuse; operators have a precedence and functions take any
arguments. -/
def Total : RuleKind → Prop
  | operand build => ∀ text scope, ∃ e, build text scope = .ok e
  | operator positions precedence build => positions ∈ fixities ∧ precedence.isSome ∧
      ∀ text args, args.length = positions.length → ∃ e, build text args = .ok e
  | functionCall overloads => ∀ o ∈ overloads, o.parameters = none ∧
      ∀ args, ∃ e, o.build args = .ok e
  | bracketOpen | bracketClose .. | listDelimiter => True
  | terminal | collectionBracket _ | collectionAccessor => False

theorem Total.plain {k : RuleKind} (h : k.Total) : k.Plain := by
  cases k with
  | operator positions precedence build => exact h.1
  | terminal => exact h
  | collectionBracket build => exact h
  | collectionAccessor => exact h
  | _ => trivial

end RuleKind

namespace Grammar

/-- Whether a token stands for an operand. -/
def isOperand (g : Grammar) (t : Token) : Bool := g.kind t.rule matches .operand _

/-- A token is an operator with some positions. -/
def IsOperator (g : Grammar) (positions : List Side) (t : Token) : Prop :=
  ∃ precedence build, g.kind t.rule = .operator positions precedence build

/-- A token opens a plain bracket. -/
def IsOpen (g : Grammar) (t : Token) : Prop := g.kind t.rule = .bracketOpen

/-- A token opens the arguments of a function. -/
def IsCall (g : Grammar) (t : Token) : Prop := ∃ overloads, g.kind t.rule = .functionCall overloads

/-- The rule of a token has a name. -/
def Named (g : Grammar) (t : Token) (name : String) : Prop :=
  ∃ rule, g.rules[t.rule]? = some rule ∧ rule.name = name

/-- A close bracket lists the rule of another token among those that it closes. -/
def Closes (g : Grammar) (close opening : Token) : Prop :=
  ∃ opens delimiter, g.kind close.rule = .bracketClose opens delimiter ∧
    ∃ name ∈ opens, g.Named opening name

/-- A token is the delimiter that a close bracket is linked to. -/
def Separates (g : Grammar) (close delimiter : Token) : Prop :=
  ∃ opens name, g.kind close.rule = .bracketClose opens (some name) ∧ g.Named delimiter name

/-- What tokens may stand for; arguments are those before a close bracket. -/
inductive Category where
  | expression
  | term
  | primary
  | arguments (close : Token)

/-- The tokens of a category. An expression is made of terms with operators between them; a term is a
primary with operators before and behind it; a primary is an operand, an expression in brackets, or a
function with no argument or with some that delimiters separate. -/
inductive Derives (g : Grammar) : Category → List Token → Prop
  | term {ts : List Token} (h : Derives g .term ts) : Derives g .expression ts
  | join {ts us : List Token} {o : Token} (left : Derives g .term ts)
      (operator : g.IsOperator [.left, .right] o) (right : Derives g .expression us) :
      Derives g .expression (ts ++ o :: us)
  | primary {before ts behind : List Token} (leads : ∀ t ∈ before, g.IsOperator [.right] t)
      (inner : Derives g .primary ts) (trails : ∀ t ∈ behind, g.IsOperator [.left] t) :
      Derives g .term (before ++ ts ++ behind)
  | operand {t : Token} (h : g.isOperand t = true) : Derives g .primary [t]
  | bracket {opening close : Token} {ts : List Token} (opens : g.IsOpen opening)
      (inner : Derives g .expression ts) (closes : g.Closes close opening) :
      Derives g .primary (opening :: ts ++ [close])
  | callNone {opening close : Token} (opens : g.IsCall opening)
      (closes : g.Closes close opening) : Derives g .primary [opening, close]
  | call {opening close : Token} {ts : List Token} (opens : g.IsCall opening)
      (args : Derives g (.arguments close) ts) (closes : g.Closes close opening) :
      Derives g .primary (opening :: ts ++ [close])
  | last {close : Token} {ts : List Token} (h : Derives g .expression ts) :
      Derives g (.arguments close) ts
  | more {close delimiter : Token} {ts us : List Token} (first : Derives g .expression ts)
      (separates : g.Separates close delimiter) (rest : Derives g (.arguments close) us) :
      Derives g (.arguments close) (ts ++ delimiter :: us)

end Grammar

/-! ## Derivations that follow the rules -/

namespace Derivation

mutual

/-- The tokens that an operand was built from, in the order of the text. -/
def tokens : Derivation → List Token
  | token t => [t]
  | operation op left right => tokensOf left ++ op :: tokensOf right
  | bracket opening inner close => opening :: inner.tokens ++ [close]
  | call opening [] _ close => [opening, close]
  | call opening (arg :: args) delimiters close =>
    opening :: arg.tokens ++ followed delimiters args ++ [close]
  | collection source opening accessor none close =>
    source.tokens ++ opening :: accessor.toList ++ [close]
  | collection source opening accessor (some body) close =>
    source.tokens ++ opening :: accessor.toList ++ body.tokens ++ [close]

/-- The tokens of some derivations, one after the other. -/
def tokensOf : List Derivation → List Token
  | [] => []
  | d :: ds => d.tokens ++ tokensOf ds

/-- The tokens of arguments, each behind its delimiter. -/
def followed (delimiters : List Token) : List Derivation → List Token
  | [] => []
  | d :: ds => delimiters.head?.toList ++ d.tokens ++ followed delimiters.tail ds

end

@[simp] theorem tokens_lead (o : Token) (right : Derivation) :
    (operation o [] [right]).tokens = o :: right.tokens := by
  simp [tokens, tokensOf]

@[simp] theorem tokens_trail (o : Token) (left : Derivation) :
    (operation o [left] []).tokens = left.tokens ++ [o] := by
  simp [tokens, tokensOf]

@[simp] theorem tokens_join (o : Token) (left right : Derivation) :
    (operation o [left] [right]).tokens = left.tokens ++ o :: right.tokens := by
  simp [tokens, tokensOf]

theorem mem_tokens_call {opening close t : Token} {args : List Derivation} {delimiters : List Token}
    {d : Derivation} (hd : d ∈ args) (ht : t ∈ d.tokens) :
    t ∈ (call opening args delimiters close).tokens := by
  have hfollowed (delimiters : List Token) {args : List Derivation} (hd : d ∈ args) :
      t ∈ followed delimiters args := by
    induction args generalizing delimiters with
    | nil => cases hd
    | cons arg args ih =>
      rcases List.mem_cons.1 hd with rfl | hd
      · simp [followed, ht]
      · simp [followed, ih delimiters.tail hd]
  cases args with
  | nil => cases hd
  | cons arg args =>
    rcases List.mem_cons.1 hd with rfl | hd
    · simp [tokens, ht]
    · simp [tokens, hfollowed delimiters hd]

/-- A derivation follows the rules of a grammar. -/
inductive Formed (g : Grammar) : Derivation → Prop
  | token {t : Token} (h : g.isOperand t = true) : Formed g (token t)
  | lead {o : Token} {right : Derivation} (operator : g.IsOperator [.right] o)
      (operand : Formed g right) : Formed g (operation o [] [right])
  | trail {o : Token} {left : Derivation} (operator : g.IsOperator [.left] o)
      (operand : Formed g left) : Formed g (operation o [left] [])
  | join {o : Token} {left right : Derivation} (operator : g.IsOperator [.left, .right] o)
      (before : Formed g left) (after : Formed g right) : Formed g (operation o [left] [right])
  | bracket {opening close : Token} {inner : Derivation} (opens : g.IsOpen opening)
      (contents : Formed g inner) (closes : g.Closes close opening) :
      Formed g (bracket opening inner close)
  | call {opening close : Token} {args : List Derivation} {delimiters : List Token}
      (opens : g.IsCall opening) (contents : ∀ d ∈ args, Formed g d)
      (separates : ∀ t ∈ delimiters, g.Separates close t)
      (length : delimiters.length = args.length - 1) (closes : g.Closes close opening) :
      Formed g (call opening args delimiters close)

end Derivation

namespace Grammar.Derives

variable {g : Grammar} {c : Category} {ts us : List Token} {o : Token}

theorem lead_term (ho : g.IsOperator [.right] o) (h : Derives g .term ts) :
    Derives g .term (o :: ts) := by
  cases h with
  | @primary before ts behind leads inner trails =>
    have hleads : ∀ t ∈ o :: before, g.IsOperator [.right] t := List.forall_mem_cons.2 ⟨ho, leads⟩
    exact .primary hleads inner trails

theorem lead (ho : g.IsOperator [.right] o) (h : Derives g .expression ts) :
    Derives g .expression (o :: ts) := by
  cases h with
  | term h => exact .term (lead_term ho h)
  | join left operator right => exact .join (lead_term ho left) operator right

theorem trail_term (ho : g.IsOperator [.left] o) (h : Derives g .term ts) :
    Derives g .term (ts ++ [o]) := by
  cases h with
  | @primary before ts behind leads inner trails =>
    have htrails : ∀ t ∈ behind ++ [o], g.IsOperator [.left] t := by
      intro t ht
      rcases List.mem_append.1 ht with ht | ht
      · exact trails t ht
      · exact List.mem_singleton.1 ht ▸ ho
    rw [List.append_assoc]
    exact .primary leads inner htrails

/-- An operator behind an expression stands behind its last term. -/
theorem trail (ho : g.IsOperator [.left] o) (h : Derives g c ts) (hc : c = .expression) :
    Derives g .expression (ts ++ [o]) := by
  induction h with
  | term h => exact .term (trail_term ho h)
  | join left operator right _ ih =>
    rw [List.append_assoc]
    exact .join left operator (ih rfl)
  | _ => cases hc

/-- Expressions may stand on both sides of an operator. -/
theorem append (ho : g.IsOperator [.left, .right] o) (h : Derives g c ts) (hc : c = .expression)
    (h' : Derives g .expression us) : Derives g .expression (ts ++ o :: us) := by
  induction h with
  | term h => exact .join h ho h'
  | join left operator right _ ih =>
    rw [List.append_assoc]
    exact .join left operator (ih rfl)
  | _ => cases hc

/-- Arguments with the delimiters between them. -/
theorem arguments {close : Token} {arg : Derivation} {args : List Derivation}
    {delimiters : List Token} (hfirst : Derives g .expression arg.tokens)
    (hargs : ∀ d ∈ args, Derives g .expression d.tokens)
    (hdelimiters : ∀ t ∈ delimiters, g.Separates close t) (hlen : delimiters.length = args.length) :
    Derives g (.arguments close) (arg.tokens ++ Derivation.followed delimiters args) := by
  induction args generalizing arg delimiters with
  | nil => simpa [Derivation.followed] using .last hfirst
  | cons d args ih =>
    cases delimiters with
    | nil => cases hlen
    | cons t delimiters =>
      have hrest := ih (hargs d List.mem_cons_self) (fun e he => hargs e (List.mem_cons_of_mem _ he))
        (fun u hu => hdelimiters u (List.mem_cons_of_mem _ hu)) (by simpa using hlen)
      exact .more hfirst (hdelimiters t List.mem_cons_self) hrest

theorem of_formed {d : Derivation} (h : d.Formed g) : Derives g .expression d.tokens := by
  have ofPrimary {ts : List Token} (h : Derives g .primary ts) : Derives g .expression ts := by
    have none (side : List Side) : ∀ t ∈ ([] : List Token), g.IsOperator side t := by simp
    simpa using Derives.term (.primary (none _) h (none _))
  induction h with
  | token h => exact ofPrimary (.operand h)
  | lead operator operand ih => simpa using lead operator ih
  | trail operator operand ih => simpa using trail operator ih rfl
  | join operator before after ihl ihr => simpa using append operator ihl rfl ihr
  | bracket opens contents closes ih => exact ofPrimary (.bracket opens ih closes)
  | @call opening close args delimiters opens contents separates length closes ih =>
    cases args with
    | nil => exact ofPrimary (.callNone opens closes)
    | cons arg args =>
      have h := arguments (ih arg List.mem_cons_self)
        (fun d hd => ih d (List.mem_cons_of_mem _ hd)) separates (by simpa using length)
      simpa [Derivation.tokens] using ofPrimary (.call opens h closes)

end Grammar.Derives

namespace Derivation

/-- What holds of the derivations behind the tokens of a category. -/
def Parses (g : Grammar) : Grammar.Category → List Token → Prop
  | .arguments close, ts => ∃ arg args delimiters, (∀ d ∈ arg :: args, Formed g d) ∧
      (∀ t ∈ delimiters, g.Separates close t) ∧ delimiters.length = args.length ∧
      arg.tokens ++ followed delimiters args = ts
  | _, ts => ∃ d, Formed g d ∧ d.tokens = ts

theorem Formed.lead_all {g : Grammar} {d : Derivation} {before : List Token} (h : Formed g d)
    (leads : ∀ t ∈ before, g.IsOperator [.right] t) :
    ∃ e, Formed g e ∧ e.tokens = before ++ d.tokens := by
  induction before with
  | nil => exact ⟨d, h, rfl⟩
  | cons o before ih =>
    obtain ⟨e, he, htokens⟩ := ih fun t ht => leads t (List.mem_cons_of_mem _ ht)
    exact ⟨operation o [] [e], .lead (leads o List.mem_cons_self) he, by simp [htokens]⟩

theorem Formed.trail_all {g : Grammar} {d : Derivation} {behind : List Token} (h : Formed g d)
    (trails : ∀ t ∈ behind, g.IsOperator [.left] t) :
    ∃ e, Formed g e ∧ e.tokens = d.tokens ++ behind := by
  induction behind generalizing d with
  | nil => exact ⟨d, h, by simp⟩
  | cons o behind ih =>
    obtain ⟨e, he, htokens⟩ := ih (h.trail (trails o List.mem_cons_self))
      fun t ht => trails t (List.mem_cons_of_mem _ ht)
    exact ⟨e, he, by simpa using htokens⟩

theorem parses_of_derives {g : Grammar} {c : Grammar.Category} {ts : List Token}
    (h : g.Derives c ts) : Parses g c ts := by
  induction h with
  | term _ ih => exact ih
  | join _ operator _ ihl ihr =>
    obtain ⟨d, hd, rfl⟩ := ihl
    obtain ⟨e, he, rfl⟩ := ihr
    exact ⟨operation _ [d] [e], .join operator hd he, by simp⟩
  | @primary before ts behind leads _ trails ih =>
    obtain ⟨d, hd, rfl⟩ := ih
    obtain ⟨e, he, hbehind⟩ := hd.trail_all trails
    obtain ⟨f, hf, hbefore⟩ := he.lead_all leads
    exact ⟨f, hf, by rw [hbefore, hbehind, List.append_assoc]⟩
  | operand h => exact ⟨token _, .token h, rfl⟩
  | bracket opens _ closes ih =>
    obtain ⟨d, hd, rfl⟩ := ih
    exact ⟨bracket _ d _, .bracket opens hd closes, rfl⟩
  | callNone opens closes =>
    exact ⟨call _ [] [] _, .call opens (by simp) (by simp) rfl closes, rfl⟩
  | call opens _ closes ih =>
    obtain ⟨arg, args, delimiters, hargs, hdelimiters, hlen, rfl⟩ := ih
    exact ⟨call _ (arg :: args) delimiters _, .call opens hargs hdelimiters (by simpa using hlen)
      closes, by simp [tokens]⟩
  | last _ ih =>
    obtain ⟨d, hd, rfl⟩ := ih
    exact ⟨d, [], [], by simpa using hd, by simp, rfl, by simp [followed]⟩
  | @more close delimiter ts us _ separates _ ihl ihr =>
    obtain ⟨d, hd, rfl⟩ := ihl
    obtain ⟨arg, args, delimiters, hargs, hdelimiters, hlen, rfl⟩ := ihr
    refine ⟨d, arg :: args, delimiter :: delimiters, ?_, ?_, by simpa using hlen, by simp [followed]⟩
    · exact List.forall_mem_cons.2 ⟨hd, hargs⟩
    · exact List.forall_mem_cons.2 ⟨separates, hdelimiters⟩

/-- Expressions are the tokens of derivations that follow the rules. -/
theorem derives_iff_formed {g : Grammar} {ts : List Token} :
    g.Derives .expression ts ↔ ∃ d, Formed g d ∧ d.tokens = ts := by
  constructor
  · exact parses_of_derives
  · rintro ⟨d, hd, rfl⟩
    exact .of_formed hd

end Derivation

/-! ## Reductions -/

namespace Trace

/-- What a reduction makes of operands if the operator stands before its operand, behind it, or between
two. -/
inductive Joined (g : Grammar) (top : Pending) (boundary : Nat) : List Derived → List Derived → Prop
  | lead {x : Derived} {rest : List Derived} {expr : Expr}
      (operator : g.IsOperator [.right] top.token) (after : top.extent.stop ≤ x.extent.start)
      (next : ∀ y ∈ rest.head?, y.extent.start < top.extent.stop) :
      Joined g top boundary (x :: rest)
        (⟨⟨expr, top.extent.cover x.extent⟩, .operation top.token [] [x.derivation]⟩ :: rest)
  | trail {x : Derived} {rest : List Derived} {expr : Expr}
      (operator : g.IsOperator [.left] top.token) (before : x.extent.start < top.extent.stop)
      (inside : boundary ≤ x.extent.start) :
      Joined g top boundary (x :: rest)
        (⟨⟨expr, top.extent.cover x.extent⟩, .operation top.token [x.derivation] []⟩ :: rest)
  | join {x y : Derived} {rest : List Derived} {expr : Expr}
      (operator : g.IsOperator [.left, .right] top.token)
      (after : top.extent.stop ≤ y.extent.start) (before : x.extent.start < top.extent.stop)
      (inside : boundary ≤ x.extent.start) :
      Joined g top boundary (y :: x :: rest)
        (⟨⟨expr, (top.extent.cover x.extent).cover y.extent⟩,
          .operation top.token [x.derivation] [y.derivation]⟩ :: rest)

variable {g : Grammar} {top : Pending} {below : List Pending} {operands results : List Derived}

theorem joined_of_reduced (hplain : (g.kind top.rule).Plain)
    (hwaits : (g.kind top.rule).isInert = false) (h : Reduced g top below operands results) :
    Joined g top (boundaryOf (below.map Pending.activation)) operands results := by
  cases h with
  | inert hk => simp [hwaits] at hk
  | @operation positions precedence build left right rest expr hk hs hb =>
    have hfix : positions ∈ fixities := by simpa [hk, RuleKind.Plain] using hplain
    have hstack := hs.stack_eq
    have hright := hs.length_right
    have hleft := hs.length_left
    simp only [fixities, List.mem_cons, List.not_mem_nil, or_false] at hfix
    rcases hfix with rfl | rfl | rfl
    · obtain ⟨x, rfl⟩ := List.length_eq_one_iff.1 hright
      obtain rfl := List.length_eq_zero_iff.1 hleft
      subst hstack
      exact .lead ⟨_, _, hk⟩ (hs.after x (by simp)) (by simpa using hs.before)
    · obtain rfl := List.length_eq_zero_iff.1 hright
      obtain ⟨x, rfl⟩ := List.length_eq_one_iff.1 hleft
      subst hstack
      exact .trail ⟨_, _, hk⟩ (hs.before x (by simp)) (hs.inside x (by simp))
    · obtain ⟨y, rfl⟩ := List.length_eq_one_iff.1 hright
      obtain ⟨x, rfl⟩ := List.length_eq_one_iff.1 hleft
      subst hstack
      exact .join ⟨_, _, hk⟩ (hs.after y (by simp)) (hs.before x (by simp)) (hs.inside x (by simp))

end Trace

end Parlance
