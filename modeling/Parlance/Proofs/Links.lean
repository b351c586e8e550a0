import Mathlib.Data.List.Forall2
import Mathlib.Data.List.Nodup
import Parlance.Proofs.Syntax

/-!
# Links are references by name

A language is made only of rules with distinct names whose references lead to rules of the right kind.
`Grammar.Linked` says what follows for the places that its close brackets are linked to.
-/

namespace Parlance

theorem mapM_eq_ok {ε α β : Type} {f : α → Except ε β} {xs : List α} {ys : List β} :
    xs.mapM f = .ok ys ↔ List.Forall₂ (fun x y => f x = .ok y) xs ys := by
  induction xs generalizing ys with
  | nil =>
    rw [List.mapM_nil, List.forall₂_nil_left_iff]
    exact ⟨fun h => by cases h; rfl, fun h => by subst h; rfl⟩
  | cons x xs ih =>
    rw [List.mapM_cons, bind_eq_ok, List.forall₂_cons_left_iff]
    constructor
    · rintro ⟨y, hy, h⟩
      obtain ⟨zs, hzs, h⟩ := bind_eq_ok.1 h
      cases h
      exact ⟨y, zs, hy, ih.1 hzs, rfl⟩
    · rintro ⟨y, zs, hy, hzs, rfl⟩
      exact ⟨y, hy, bind_eq_ok.2 ⟨zs, ih.2 hzs, rfl⟩⟩

theorem exists_of_forall₂ {α β : Type} {R : α → β → Prop} {xs : List α} {ys : List β}
    (h : List.Forall₂ R xs ys) :
    (∀ x ∈ xs, ∃ y ∈ ys, R x y) ∧ ∀ y ∈ ys, ∃ x ∈ xs, R x y := by
  induction h with
  | nil => simp
  | cons hxy _ ih =>
    simp only [List.forall_mem_cons, List.exists_mem_cons_iff]
    exact ⟨⟨.inl hxy, fun x hx => .inr (ih.1 x hx)⟩, .inl hxy, fun y hy => .inr (ih.2 y hy)⟩

theorem exists_forall₂ {α β : Type} {R : α → β → Prop} {xs : List α} (h : ∀ x ∈ xs, ∃ y, R x y) :
    ∃ ys, List.Forall₂ R xs ys := by
  induction xs with
  | nil => exact ⟨[], .nil⟩
  | cons x xs ih =>
    obtain ⟨⟨y, hy⟩, h⟩ := List.forall_mem_cons.1 h
    obtain ⟨ys, hys⟩ := ih h
    exact ⟨y :: ys, .cons hy hys⟩

theorem option_mapM_eq_ok {ε α β : Type} {f : α → Except ε β} {x : Option α} {y : Option β}
    (h : x.mapM f = .ok y) : Option.Rel (fun a b => f a = .ok b) x y := by
  cases x with
  | none =>
    cases h
    exact .none
  | some a =>
    cases hb : f a with
    | error e =>
      simp [Option.mapM_some, hb, Functor.map, Except.map] at h
    | ok b =>
      simp only [Option.mapM_some, hb, Functor.map, Except.map] at h
      cases h
      exact .some hb

theorem names_of_patternsOf {before : List String} {rules : List Rule} {patterns : List Pattern}
    (h : Scanner.patternsOf before rules = .ok patterns) :
    (rules.map Rule.name).Nodup ∧ ∀ r ∈ rules, r.name ∉ before := by
  induction rules generalizing before patterns with
  | nil => simp
  | cons rule rules ih =>
    obtain ⟨first, hfirst, h⟩ := bind_eq_ok.1 h
    obtain ⟨others, hothers, -⟩ := bind_eq_ok.1 h
    obtain ⟨hnodup, hfresh⟩ := ih hothers
    have hrule : rule.name ∉ before := by
      intro hmem
      simp only [Scanner.patternOf] at hfirst
      split at hfirst
      · cases hfirst
      · rw [if_pos (by simpa using hmem)] at hfirst
        cases hfirst
    constructor
    · rw [List.map_cons, List.nodup_cons]
      refine ⟨fun hmem => ?_, hnodup⟩
      obtain ⟨r, hr, hname⟩ := List.mem_map.1 hmem
      exact hfresh r hr (by simp [hname])
    · intro r hr
      rcases List.mem_cons.1 hr with rfl | hr
      · exact hrule
      · exact fun hmem => hfresh r hr (List.mem_cons_of_mem _ hmem)

/-- With distinct names a rule is found where it stands. -/
theorem findIdx?_name {rules : List Rule} (hnodup : (rules.map Rule.name).Nodup) {name : String}
    {index : Nat} :
    rules.findIdx? (·.name == name) = some index ↔
      ∃ rule, rules[index]? = some rule ∧ rule.name = name := by
  rw [List.findIdx?_eq_some_iff_getElem]
  constructor
  · rintro ⟨hi, hp, -⟩
    exact ⟨rules[index], List.getElem?_eq_getElem hi, by simpa using hp⟩
  · rintro ⟨rule, hr, hname⟩
    obtain ⟨hi, rfl⟩ := List.getElem?_eq_some_iff.1 hr
    refine ⟨hi, by simpa using hname, fun j hj hname' => ?_⟩
    have hi' : index < (rules.map Rule.name).length := by simpa using hi
    have hj' : j < (rules.map Rule.name).length := by omega
    have heq : (rules.map Rule.name)[j] = (rules.map Rule.name)[index] := by
      simpa [hname] using hname'
    have := (List.Nodup.getElem_inj_iff hnodup).1 heq
    omega

/-- A reference is resolved to the rule of that name, whose kind fits. -/
theorem find_eq_ok {rules : List Rule} (hnodup : (rules.map Rule.name).Nodup)
    {owner reference : String} {fits : RuleKind → Bool} {misfit : GrammarError} {index : Nat} :
    BracketLinks.find rules owner reference fits misfit = .ok index ↔
      ∃ rule, rules[index]? = some rule ∧ rule.name = reference ∧ fits rule.kind = true := by
  unfold BracketLinks.find
  constructor
  · intro h
    split at h
    · cases h
    · rename_i i hi
      split at h
      · rename_i hfits
        cases h
        obtain ⟨rule, hr, hname⟩ := (findIdx?_name hnodup).1 hi
        exact ⟨rule, hr, hname, by simpa [hr] using hfits⟩
      · cases h
  · rintro ⟨rule, hr, hname, hfits⟩
    rw [(findIdx?_name hnodup).2 ⟨rule, hr, hname⟩]
    simp [hr, hfits]

/-- A name is resolved to one place at most. -/
theorem find_unique {rules : List Rule} (hnodup : (rules.map Rule.name).Nodup)
    {owner name : String} {fits : RuleKind → Bool} {misfit : GrammarError} {i j : Nat}
    (h : BracketLinks.find rules owner name fits misfit = .ok i)
    (hj : ∃ rule, rules[j]? = some rule ∧ rule.name = name) : i = j := by
  obtain ⟨rule, hr, hname, -⟩ := (find_eq_ok hnodup).1 h
  have hi := (findIdx?_name hnodup).2 ⟨rule, hr, hname⟩
  rw [(findIdx?_name hnodup).2 hj] at hi
  exact (Option.some.inj hi).symm

namespace Grammar

/-- The links of close brackets are what the names in their rules refer to, to rules of the right
kind, and no function lacks an overload. -/
structure Linked (g : Grammar) : Prop where
  closes {close opening : Token} {opens : List String} {delimiter : Option String} :
    g.kind close.rule = .bracketClose opens delimiter →
      ((g.linksOf close.rule).opens.contains opening.rule = true ↔ g.Closes close opening)
  separates {close delimiter : Token} {opens : List String} {name : Option String} :
    g.kind close.rule = .bracketClose opens name →
      ((g.linksOf close.rule).delimiter = some delimiter.rule ↔ g.Separates close delimiter)
  isOpen {close opening : Token} : g.Closes close opening → (g.kind opening.rule).isOpen = true
  isDelimiter {close delimiter : Token} : g.Separates close delimiter →
    (g.kind delimiter.rule).isDelimiter = true
  overloads {t : Token} {overloads : List Overload} :
    g.kind t.rule = .functionCall overloads → overloads ≠ []

theorem kind_eq {g : Grammar} {t : Token} {rule : Rule} (h : g.rules[t.rule]? = some rule) :
    g.kind t.rule = rule.kind := by
  simp [kind, h]

theorem rule_of_kind {g : Grammar} {t : Token} {k : RuleKind} (h : g.kind t.rule = k)
    (hk : k ≠ .terminal) : ∃ rule, g.rules[t.rule]? = some rule ∧ rule.kind = k := by
  cases hr : g.rules[t.rule]? with
  | none =>
    rw [kind, hr] at h
    exact absurd h.symm hk
  | some rule => exact ⟨rule, rfl, (kind_eq hr).symm.trans h⟩

/-- What the links of a grammar are, rule by rule. -/
theorem linked_of_link {g : Grammar} (hnodup : (g.rules.map Rule.name).Nodup)
    (h : BracketLinks.link g.rules = .ok g.links) : g.Linked := by
  have hlinks (t : Token) (rule : Rule) (hr : g.rules[t.rule]? = some rule) :
      ∃ links, g.links[t.rule]? = some links ∧ BracketLinks.ofRule g.rules rule = .ok links := by
    have hall := mapM_eq_ok.1 h
    obtain ⟨hi, rfl⟩ := List.getElem?_eq_some_iff.1 hr
    have hi' : t.rule < g.links.length := hall.length_eq ▸ hi
    exact ⟨_, List.getElem?_eq_getElem hi', hall.get hi hi'⟩
  have hclose (close : Token) (opens : List String) (delimiter : Option String)
      (hk : g.kind close.rule = .bracketClose opens delimiter) :
      ∃ owner ids delimiterId, g.linksOf close.rule = ⟨ids, delimiterId⟩ ∧
        List.Forall₂ (fun name i => BracketLinks.find g.rules owner name RuleKind.isOpen
          (.notAnOpenBracket owner name) = .ok i) opens ids ∧
        Option.Rel (fun name i => BracketLinks.find g.rules owner name RuleKind.isDelimiter
          (.notADelimiter owner name) = .ok i) delimiter delimiterId := by
    obtain ⟨rule, hr, hkind⟩ := rule_of_kind hk (by simp)
    obtain ⟨links, hl, hlinks⟩ := hlinks close rule hr
    simp only [BracketLinks.ofRule, hkind] at hlinks
    obtain ⟨ids, hids, hlinks⟩ := bind_eq_ok.1 hlinks
    obtain ⟨delimiterId, hdelimiter, hlinks⟩ := bind_eq_ok.1 hlinks
    cases hlinks
    exact ⟨rule.name, ids, delimiterId, by simp [linksOf, hl], mapM_eq_ok.1 hids,
      option_mapM_eq_ok hdelimiter⟩
  constructor
  case closes =>
    intro close opening opens delimiter hk
    obtain ⟨owner, ids, delimiterId, hl, hids, -⟩ := hclose close opens delimiter hk
    rw [hl, List.contains_iff_mem]
    constructor
    · intro hmem
      obtain ⟨name, hname, hfind⟩ := (exists_of_forall₂ hids).2 _ hmem
      obtain ⟨rule, hr, hrule, -⟩ := (find_eq_ok hnodup).1 hfind
      exact ⟨opens, delimiter, hk, name, hname, rule, hr, hrule⟩
    · rintro ⟨opens', delimiter', hk', name, hname, hnamed⟩
      cases hk.symm.trans hk'
      obtain ⟨i, hi, hfind⟩ := (exists_of_forall₂ hids).1 _ hname
      exact find_unique hnodup hfind hnamed ▸ hi
  case separates =>
    intro close delimiter opens name hk
    obtain ⟨owner, ids, delimiterId, hl, -, hd⟩ := hclose close opens name hk
    rw [hl]
    constructor
    · rintro rfl
      cases hd with
      | some hfind =>
        obtain ⟨rule, hr, hrule, -⟩ := (find_eq_ok hnodup).1 hfind
        exact ⟨opens, _, hk, rule, hr, hrule⟩
    · rintro ⟨opens', name', hk', hnamed⟩
      cases hk.symm.trans hk'
      cases hd with
      | some hfind => exact congrArg some (find_unique hnodup hfind hnamed)
  case isOpen =>
    rintro close opening ⟨opens, delimiter, hk, name, hname, hnamed⟩
    obtain ⟨owner, ids, delimiterId, -, hids, -⟩ := hclose close opens delimiter hk
    obtain ⟨i, -, hfind⟩ := (exists_of_forall₂ hids).1 _ hname
    obtain rfl := find_unique hnodup hfind hnamed
    obtain ⟨rule, hr, -, hfits⟩ := (find_eq_ok hnodup).1 hfind
    rwa [kind_eq hr]
  case isDelimiter =>
    rintro close delimiter ⟨opens, name, hk, hnamed⟩
    obtain ⟨owner, ids, delimiterId, -, -, hd⟩ := hclose close opens _ hk
    cases hd with
    | some hfind =>
      obtain rfl := find_unique hnodup hfind hnamed
      obtain ⟨rule, hr, -, hfits⟩ := (find_eq_ok hnodup).1 hfind
      rwa [kind_eq hr]
  case overloads =>
    rintro t overloads hk rfl
    obtain ⟨rule, hr, hkind⟩ := rule_of_kind hk (by simp)
    obtain ⟨links, -, hlinks⟩ := hlinks t rule hr
    simp [BracketLinks.ofRule, hkind] at hlinks

end Grammar

/-- A language has the rules that it is made of, with distinct names and with their links. -/
theorem of_make? {rules : List Rule} {l : Language} (h : Language.make? rules = .ok l) :
    l.grammar.rules = rules ∧ (rules.map Rule.name).Nodup ∧
      BracketLinks.link rules = .ok l.grammar.links := by
  obtain ⟨scanner, hscanner, h⟩ := bind_eq_ok.1 h
  obtain ⟨links, hlinks, h⟩ := bind_eq_ok.1 h
  cases h
  obtain ⟨patterns, hpatterns, hscanner⟩ := bind_eq_ok.1 hscanner
  have hrules : scanner.rules = rules := by
    split at hscanner
    · cases hscanner
    · cases hscanner
      rfl
  exact ⟨hrules, (names_of_patternsOf hpatterns).1, hlinks⟩

/-- The links of a language are those of its rules. -/
theorem linked_of_make? {rules : List Rule} {l : Language} (h : Language.make? rules = .ok l) :
    l.grammar.Linked := by
  obtain ⟨rfl, hnodup, hlinks⟩ := of_make? h
  exact Grammar.linked_of_link hnodup hlinks

/-- A token of a language has the kind of one of its rules. -/
theorem kind_of_make? {rules : List Rule} {l : Language} (h : Language.make? rules = .ok l)
    {t : Token} (ht : t.rule < rules.length) : ∃ r ∈ rules, l.grammar.kind t.rule = r.kind := by
  obtain ⟨rfl, -, -⟩ := of_make? h
  exact ⟨l.grammar.rules[t.rule], List.getElem_mem ht,
    Grammar.kind_eq (List.getElem?_eq_getElem ht)⟩

/-- What is true of the kinds of all rules is true of the kind of each token. -/
theorem forall_kind_of_make? {rules : List Rule} {l : Language} {P : RuleKind → Prop}
    (made : Language.make? rules = .ok l) (hterminal : P .terminal) (h : ∀ r ∈ rules, P r.kind) (t : Token) :
    P (l.grammar.kind t.rule) := by
  by_cases ht : t.rule < rules.length
  · obtain ⟨r, hr, hkind⟩ := kind_of_make? made ht
    exact hkind ▸ h r hr
  · obtain ⟨rfl, -, -⟩ := of_make? made
    rw [Grammar.kind, List.getElem?_eq_none (Nat.le_of_not_lt ht)]
    exact hterminal

/-- Rules that fit together make a language. -/
theorem make?_eq_ofRules {rules : List Rule}
    (fits : (Language.make? rules).toOption.isSome = true) :
    Language.make? rules = .ok (.ofRules rules fits) :=
  toOption_eq_some.1 (Option.eq_some_of_isSome fits)

end Parlance
