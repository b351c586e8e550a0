import Parlance.Proofs.Links

/-!
# Languages of consistent rules

A list of rules makes a language exactly if it is `Consistent`, and then the links of each rule are the
places of the rules that it names (`LinksOf`). Else the error is the first of all `violations`: those of
each rule by itself, in the order of the rules, then that of the common pattern, then those of the
references between rules. That a computation finds the first of some errors is `Reports`, which a
sequence of steps has if every step has it (`Reports.bind`, `Reports.mapM`).
-/

namespace Parlance

/-! ## First errors -/

/-- A result reports a list of errors: it is an error if there are any, and then the first of them. -/
def Reports {ε α : Type} (errors : List ε) : Except ε α → Prop
  | .ok _ => errors = []
  | .error e => errors.head? = some e

namespace Reports

variable {ε α β : Type} {x : Except ε α} {es es' : List ε}

theorem ok_iff (h : Reports es x) : (∃ a, x = .ok a) ↔ es = [] := by
  cases x with
  | ok a => exact ⟨fun _ => h, fun _ => ⟨a, rfl⟩⟩
  | error e =>
    have hhead : es.head? = some e := h
    constructor
    · rintro ⟨a, ha⟩
      cases ha
    · rintro rfl
      cases hhead

theorem error_iff (h : Reports es x) (e : ε) : x = .error e ↔ es.head? = some e := by
  cases x with
  | ok a =>
    obtain rfl : es = [] := h
    exact ⟨nofun, nofun⟩
  | error e' =>
    have hhead : es.head? = some e' := h
    rw [hhead, Except.error.injEq, Option.some.injEq]

theorem bind {f : α → Except ε β} (h : Reports es x) (hf : ∀ a, x = .ok a → Reports es' (f a)) :
    Reports (es ++ es') (x >>= f) := by
  cases x with
  | ok a =>
    obtain rfl : es = [] := h
    exact hf a rfl
  | error e =>
    have hhead : es.head? = some e := h
    show (es ++ es').head? = some e
    rw [List.head?_append, hhead]
    rfl

theorem map {f : α → β} (h : Reports es x) : Reports es (f <$> x) := by
  cases x <;> exact h

theorem mapM {f : α → Except ε β} {errorsOf : α → List ε} {xs : List α}
    (h : ∀ a, Reports (errorsOf a) (f a)) : Reports (xs.flatMap errorsOf) (xs.mapM f) := by
  induction xs with
  | nil => exact rfl
  | cons a xs ih =>
    rw [List.mapM_cons, List.flatMap_cons]
    exact (h a).bind fun b _ => ih.map

theorem option_mapM {f : α → Except ε β} {errorsOf : α → List ε} {a : Option α}
    (h : ∀ a, Reports (errorsOf a) (f a)) : Reports (a.toList.flatMap errorsOf) (a.mapM f) := by
  cases a with
  | none => exact rfl
  | some a =>
    rw [Option.toList_some, List.flatMap_singleton, Option.mapM_some]
    exact (h a).map

end Reports

/-! ## Consistent rules -/

/-- A name is not empty, and has only ASCII letters, digits and underscores. -/
def IsRuleName (name : String) : Prop :=
  name ≠ "" ∧ ∀ c ∈ name.toList, c.isAlphanum = true ∨ c = '_'

theorem isRuleName_iff {name : String} : Scanner.isRuleName name = true ↔ IsRuleName name := by
  simp [Scanner.isRuleName, IsRuleName]

instance (name : String) : Decidable (IsRuleName name) := decidable_of_iff _ isRuleName_iff

/-- Rules with names and patterns of their own, whose references lead to rules of the right kind. -/
structure Consistent (rules : List Rule) : Prop where
  named : ∀ rule ∈ rules, IsRuleName rule.name
  distinct : (rules.map Rule.name).Nodup
  patterns : ∀ rule ∈ rules, (Pattern.parse? rule.pattern).isSome = true
  combined : (Pattern.parseChars? (Scanner.combinedChars rules)).isSome = true
  overloads : ∀ rule ∈ rules, rule.kind ≠ .functionCall []
  opens : ∀ rule ∈ rules, ∀ opens delimiter, rule.kind = .bracketClose opens delimiter →
    ∀ name ∈ opens, ∃ opening ∈ rules, opening.name = name ∧ opening.kind.isOpen = true
  delimiters : ∀ rule ∈ rules, ∀ opens name, rule.kind = .bracketClose opens (some name) →
    ∃ delimiter ∈ rules, delimiter.name = name ∧ delimiter.kind.isDelimiter = true

/-- The place of the rule with a name, which is of the kind that is asked for. -/
def IsPlace (rules : List Rule) (fits : RuleKind → Bool) (name : String) (place : Nat) : Prop :=
  ∃ rule, rules[place]? = some rule ∧ rule.name = name ∧ fits rule.kind = true

/-- The links of a rule: for a close bracket the places of the rules that it names, in the order in which
it names them, and none for any other rule. -/
inductive LinksOf (rules : List Rule) (rule : Rule) : Option BracketLinks → Prop
  | close {opens : List String} {delimiter : Option String} {places : List Nat} {place : Option Nat}
      (kind : rule.kind = .bracketClose opens delimiter)
      (opens_at : List.Forall₂ (IsPlace rules RuleKind.isOpen) opens places)
      (delimiter_at : Option.Rel (IsPlace rules RuleKind.isDelimiter) delimiter place) :
      LinksOf rules rule (some ⟨places, place⟩)
  | other (kind : ∀ opens delimiter, rule.kind ≠ .bracketClose opens delimiter) :
      LinksOf rules rule none

/-! ## Violations -/

/-- What is wrong with a rule by itself, behind other rules. -/
def Rule.violations (before : List Rule) (rule : Rule) : List GrammarError :=
  (if IsRuleName rule.name then [] else [.invalidRuleName rule.name]) ++
  (if ∃ other ∈ before, other.name = rule.name then [.duplicateRuleName rule.name] else []) ++
  if (Pattern.parse? rule.pattern).isSome then [] else [.invalidPattern rule.name]

/-- What is wrong with a reference to a rule, which should be of some kind. -/
def referenceViolations (rules : List Rule) (owner name : String) (fits : RuleKind → Bool)
    (misfit : GrammarError) : List GrammarError :=
  if ∃ rule ∈ rules, rule.name = name ∧ fits rule.kind = true then []
  else if ∃ rule ∈ rules, rule.name = name then [misfit]
  else [.unknownRule owner name]

/-- What is wrong with a rule among the others. -/
def Rule.linkViolations (rules : List Rule) (rule : Rule) : List GrammarError :=
  match rule.kind with
  | .functionCall [] => [.emptyOverloads rule.name]
  | .bracketClose opens delimiter =>
    opens.flatMap (fun name =>
      referenceViolations rules rule.name name RuleKind.isOpen (.notAnOpenBracket rule.name name)) ++
    delimiter.toList.flatMap fun name =>
      referenceViolations rules rule.name name RuleKind.isDelimiter (.notADelimiter rule.name name)
  | _ => []

/-- All that is wrong with a list of rules. -/
def violations (rules : List Rule) : List GrammarError :=
  rules.zipIdx.flatMap (fun (rule, place) => rule.violations (rules.take place)) ++
  (if (Pattern.parseChars? (Scanner.combinedChars rules)).isSome then [] else [.combinedPattern]) ++
  rules.flatMap (Rule.linkViolations rules)

variable {rules : List Rule} {rule : Rule}

theorem referenceViolations_eq_nil {owner name : String} {fits : RuleKind → Bool}
    {misfit : GrammarError} : referenceViolations rules owner name fits misfit = [] ↔
      ∃ rule ∈ rules, rule.name = name ∧ fits rule.kind = true := by
  unfold referenceViolations
  split
  · exact iff_of_true rfl ‹_›
  · split <;> exact iff_of_false (List.cons_ne_nil _ _) ‹_›

theorem Rule.violations_eq_nil {before : List Rule} : rule.violations before = [] ↔
    IsRuleName rule.name ∧ (∀ other ∈ before, other.name ≠ rule.name) ∧
      (Pattern.parse? rule.pattern).isSome = true := by
  simp [Rule.violations, Option.isSome_iff_ne_none]

theorem Rule.linkViolations_eq_nil : rule.linkViolations rules = [] ↔
    rule.kind ≠ .functionCall [] ∧ ∀ opens delimiter, rule.kind = .bracketClose opens delimiter →
      (∀ name ∈ opens, ∃ opening ∈ rules, opening.name = name ∧ opening.kind.isOpen = true) ∧
      ∀ name ∈ delimiter, ∃ other ∈ rules, other.name = name ∧ other.kind.isDelimiter = true := by
  unfold Rule.linkViolations
  split
  · rename_i hkind
    exact iff_of_false (List.cons_ne_nil _ _) fun h => h.1 hkind
  · rename_i opens delimiter hkind
    simp only [List.append_eq_nil_iff, List.flatMap_eq_nil_iff, referenceViolations_eq_nil,
      Option.mem_toList]
    constructor
    · intro h
      refine ⟨by simp [hkind], fun opens' delimiter' hkind' => ?_⟩
      cases hkind.symm.trans hkind'
      exact h
    · intro h
      exact h.2 opens delimiter hkind
  · rename_i hcall hclose
    exact iff_of_true rfl ⟨hcall, fun opens delimiter hkind => absurd hkind (hclose opens delimiter)⟩

/-- Names differ if each differs from those before it. -/
theorem names_nodup_iff : (rules.map Rule.name).Nodup ↔
    ∀ rule place, rules[place]? = some rule → ∀ other ∈ rules.take place, other.name ≠ rule.name := by
  rw [List.Nodup, List.pairwise_map, List.pairwise_iff_getElem]
  constructor
  · intro h rule place hrule other hother
    obtain ⟨hplace, rfl⟩ := List.getElem?_eq_some_iff.1 hrule
    obtain ⟨i, hi, rfl⟩ := List.mem_take_iff_getElem.1 hother
    exact h i place (by omega) hplace (by omega)
  · intro h i j hi hj hij
    apply h rules[j] j (List.getElem?_eq_getElem hj)
    exact List.mem_take_iff_getElem.2 ⟨i, by omega, rfl⟩

theorem violations_eq_nil_iff : violations rules = [] ↔ Consistent rules := by
  simp only [violations, List.append_eq_nil_iff, List.flatMap_eq_nil_iff, Prod.forall,
    List.mk_mem_zipIdx_iff_getElem?, Rule.violations_eq_nil, Rule.linkViolations_eq_nil,
    ite_eq_left_iff, reduceCtorEq, imp_false, not_not]
  constructor
  · rintro ⟨⟨hrules, hcombined⟩, hlinks⟩
    have hown (rule : Rule) (hrule : rule ∈ rules) :
        IsRuleName rule.name ∧ (Pattern.parse? rule.pattern).isSome = true := by
      obtain ⟨place, hplace⟩ := List.mem_iff_getElem?.1 hrule
      exact ⟨(hrules rule place hplace).1, (hrules rule place hplace).2.2⟩
    constructor
    case named => exact fun rule hrule => (hown rule hrule).1
    case distinct =>
      apply names_nodup_iff.2
      exact fun rule place hplace => (hrules rule place hplace).2.1
    case patterns => exact fun rule hrule => (hown rule hrule).2
    case combined => exact hcombined
    case overloads => exact fun rule hrule => (hlinks rule hrule).1
    case opens =>
      intro rule hrule opens delimiter hkind
      exact ((hlinks rule hrule).2 opens delimiter hkind).1
    case delimiters =>
      intro rule hrule opens name hkind
      exact ((hlinks rule hrule).2 opens (some name) hkind).2 name rfl
  · intro h
    refine ⟨⟨fun rule place hplace => ?_, h.combined⟩, fun rule hrule => ⟨h.overloads rule hrule, ?_⟩⟩
    · have hrule := List.mem_of_getElem? hplace
      exact ⟨h.named rule hrule, names_nodup_iff.1 h.distinct rule place hplace, h.patterns rule hrule⟩
    · intro opens delimiter hkind
      refine ⟨h.opens rule hrule opens delimiter hkind, ?_⟩
      rintro name rfl
      exact h.delimiters rule hrule opens name hkind

/-! ## What making a language reports -/

theorem reports_patternOf {names : List String} {before : List Rule}
    (hnames : ∀ name, name ∈ names ↔ ∃ other ∈ before, other.name = name) :
    Reports (rule.violations before) (Scanner.patternOf names rule) := by
  simp only [Scanner.patternOf, Rule.violations, ← hnames, ← isRuleName_iff]
  cases Scanner.isRuleName rule.name with
  | false => exact rfl
  | true =>
    by_cases hname : rule.name ∈ names
    · simp only [hname, List.contains_eq_mem]
      exact rfl
    · cases hpattern : Pattern.parse? rule.pattern <;>
        simp only [hname, List.contains_eq_mem, decide_false] <;> exact rfl

/-- The rules behind others are looked at one by one, each with the names of all before it. -/
theorem reports_patternsOf {before : List Rule} {names : List String}
    (hnames : ∀ name, name ∈ names ↔ ∃ other ∈ before, other.name = name) :
    Reports ((rules.zipIdx before.length).flatMap fun (rule, place) =>
      rule.violations ((before ++ rules).take place)) (Scanner.patternsOf names rules) := by
  induction rules generalizing before names with
  | nil => exact rfl
  | cons rule rules ih =>
    simp only [List.zipIdx_cons, List.flatMap_cons, List.take_left]
    apply (reports_patternOf hnames).bind
    intro first _
    have hnext := @ih (before ++ [rule]) (rule.name :: names) fun name => by
      simp [hnames, or_comm, eq_comm]
    rw [List.length_append, List.length_singleton, List.append_assoc] at hnext
    have hmap := hnext.map (f := (first :: ·))
    rwa [map_eq_pure_bind] at hmap

theorem reports_scanner : Reports (rules.zipIdx.flatMap (fun (rule, place) =>
    rule.violations (rules.take place)) ++
      if (Pattern.parseChars? (Scanner.combinedChars rules)).isSome then [] else [.combinedPattern])
    (Scanner.make? rules) := by
  have hpatterns := @reports_patternsOf rules [] [] (by simp)
  apply hpatterns.bind
  intro patterns _
  cases Pattern.parseChars? (Scanner.combinedChars rules) <;> exact rfl

theorem reports_find (hnodup : (rules.map Rule.name).Nodup) {owner name : String}
    {fits : RuleKind → Bool} {misfit : GrammarError} :
    Reports (referenceViolations rules owner name fits misfit)
      (BracketLinks.find rules owner name fits misfit) := by
  cases hplace : rules.findIdx? (·.name == name) with
  | none =>
    have hnone (rule : Rule) (hrule : rule ∈ rules) : rule.name ≠ name := by
      simpa using List.findIdx?_eq_none_iff.1 hplace rule hrule
    rw [referenceViolations, if_neg (fun ⟨rule, hrule, hname, _⟩ => hnone rule hrule hname),
      if_neg (fun ⟨rule, hrule, hname⟩ => hnone rule hrule hname), BracketLinks.find, hplace]
    exact rfl
  | some place =>
    obtain ⟨rule, hrule, hname⟩ := (findIdx?_name hnodup).1 hplace
    have hmem := List.mem_of_getElem? hrule
    -- no other rule has the name, so the kind of this one decides
    have hfits : (∃ other ∈ rules, other.name = name ∧ fits other.kind = true) ↔
        fits rule.kind = true := by
      constructor
      · rintro ⟨other, hother, hname', hfits⟩
        rwa [List.inj_on_of_nodup_map hnodup hmem hother (hname.trans hname'.symm)]
      · exact fun hfits => ⟨rule, hmem, hname, hfits⟩
    have hnamed : ∃ other ∈ rules, other.name = name := ⟨rule, hmem, hname⟩
    simp only [referenceViolations, hfits, hnamed, BracketLinks.find, hplace, hrule, Option.any_some]
    cases fits rule.kind <;> exact rfl

theorem reports_ofRule (hnodup : (rules.map Rule.name).Nodup) :
    Reports (rule.linkViolations rules) (BracketLinks.ofRule rules rule) := by
  cases hkind : rule.kind with
  | functionCall overloads =>
    cases overloads <;> simp only [Rule.linkViolations, BracketLinks.ofRule, hkind] <;> exact rfl
  | bracketClose opens delimiter =>
    simp only [Rule.linkViolations, BracketLinks.ofRule, hkind]
    apply (Reports.mapM fun name => reports_find hnodup).bind
    intro places _
    rw [bind_pure_comp]
    exact (Reports.option_mapM fun name => reports_find hnodup).map
  | _ => simp only [Rule.linkViolations, BracketLinks.ofRule, hkind]; exact rfl

/-- Making a language reports what is wrong with the rules. -/
theorem reports_make? : Reports (violations rules) (Language.make? rules) := by
  apply reports_scanner.bind
  intro scanner hscanner
  have hnodup : (rules.map Rule.name).Nodup := by
    obtain ⟨patterns, hpatterns, -⟩ := bind_eq_ok.1 hscanner
    exact (names_of_patternsOf hpatterns).1
  rw [bind_pure_comp]
  exact (Reports.mapM fun rule => reports_ofRule hnodup).map

/-! ## Links of a language -/

theorem linksOf_ofRule (hnodup : (rules.map Rule.name).Nodup) {links : Option BracketLinks}
    (h : BracketLinks.ofRule rules rule = .ok links) : LinksOf rules rule links := by
  cases hkind : rule.kind with
  | functionCall overloads =>
    cases overloads <;> simp only [BracketLinks.ofRule, hkind] at h <;> cases h
    exact .other (by simp [hkind])
  | bracketClose opens delimiter =>
    simp only [BracketLinks.ofRule, hkind] at h
    obtain ⟨places, hplaces, h⟩ := bind_eq_ok.1 h
    obtain ⟨place, hplace, h⟩ := bind_eq_ok.1 h
    cases h
    apply LinksOf.close hkind
    · exact (mapM_eq_ok.1 hplaces).imp fun name place hfind => (find_eq_ok hnodup).1 hfind
    · cases option_mapM_eq_ok hplace with
      | none => exact .none
      | some hfind => exact .some ((find_eq_ok hnodup).1 hfind)
  | _ =>
    simp only [BracketLinks.ofRule, hkind] at h
    cases h
    exact .other (by simp [hkind])

theorem linksOf_make? {l : Language} (h : Language.make? rules = .ok l) :
    List.Forall₂ (LinksOf rules) rules l.links := by
  obtain ⟨-, hnodup, hlinks⟩ := of_make? h
  exact (mapM_eq_ok.1 hlinks).imp fun rule links => linksOf_ofRule hnodup

/-- A list of rules makes a language exactly if it is consistent. Such a language has those rules, each
with its links; else the error is the first violation. -/
theorem language_of_rules (rules : List Rule) :
    ((∃ l, Language.make? rules = .ok l) ↔ Consistent rules) ∧
    (∀ l, Language.make? rules = .ok l →
      l.rules = rules ∧ List.Forall₂ (LinksOf rules) rules l.links) ∧
    ∀ e, Language.make? rules = .error e ↔ (violations rules).head? = some e := by
  refine ⟨reports_make?.ok_iff.trans violations_eq_nil_iff, fun l h => ?_, reports_make?.error_iff⟩
  exact ⟨(of_make? h).1, linksOf_make? h⟩

/-- A pair of brackets around a list, with the name of what separates it. -/
def bracketRules (delimiter : String) : List Rule :=
  [.bracketOpen "OPEN" "\\(", .listDelimiter "COMMA" ",",
    .bracketClose "CLOSE" "\\)" ["OPEN"] (some delimiter)]

theorem language_of_rules_brackets :
    (∃ l, Language.make? (bracketRules "COMMA") = .ok l ∧ l.rules = bracketRules "COMMA" ∧
      List.Forall₂ (LinksOf (bracketRules "COMMA")) (bracketRules "COMMA") l.links) ∧
    Language.make? (bracketRules "OPEN") = .error (.notADelimiter "CLOSE" "OPEN") ∧
    ¬ Consistent (bracketRules "OPEN") := by
  have hconsistent : Consistent (bracketRules "COMMA") := by
    apply violations_eq_nil_iff.1
    decide +kernel
  have hfault : violations (bracketRules "OPEN") = [.notADelimiter "CLOSE" "OPEN"] := by
    decide +kernel
  obtain ⟨l, hl⟩ := (language_of_rules (bracketRules "COMMA")).1.2 hconsistent
  refine ⟨⟨l, hl, (language_of_rules (bracketRules "COMMA")).2.1 l hl⟩, ?_, ?_⟩
  · apply ((language_of_rules (bracketRules "OPEN")).2.2 _).2
    rw [hfault]
    rfl
  · rw [← violations_eq_nil_iff, hfault]
    exact List.cons_ne_nil _ _

end Parlance
