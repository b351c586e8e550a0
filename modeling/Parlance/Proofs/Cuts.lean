import Parlance.Language.Arithmetic
import Parlance.Language.Filter
import Parlance.Proofs.Acceptance
import Parlance.Proofs.Safety

/-!
# What builders cut

A builder gets the text of a token, and those of filters cut some texts at fixed offsets: a member's name
starts behind a slash, a string literal stands between quotes and the digits of a byte behind `0x`. The
pattern of the rule tells that this is no place within a character, since every match of it begins and
ends as it does (`Rule.Encloses`). So these builders may cut what they cut, and no guard of a parse fails
in any language (`guards_hold`).
-/

namespace Parlance

open Pattern (Cursor CharSet)

/-! ## How matches begin and end -/

namespace Pattern

/-- What is left of a pattern behind characters that all its matches start with. -/
def behind? : List Char → Pattern → Option Pattern
  | [], p => some p
  | x :: cs, seq (one set) rest => if set = .interval x x then rest.behind? cs else none
  | _ :: _, _ => none

/-- Whether all matches of a pattern end with a character. -/
def endsWith (x : Char) : Pattern → Bool
  | one set => set == .interval x x
  | seq _ rest => rest.endsWith x
  | _ => false

variable {p rest : Pattern} {c d : Cursor} {cs : List Cursor} {x : Char} {P : Cursor → Prop}

theorem rest_of_pass? (h : c.pass? (.interval x x) = some d) : c.rest = x :: d.rest := by
  rw [Cursor.pass?] at h
  split at h
  · rename_i y d' hnext
    split at h
    · rename_i hy
      cases h
      have hyx : y = x := by
        simp only [CharSet.contains, Bool.and_eq_true, decide_eq_true_eq] at hy
        exact Char.le_antisymm hy.2 hy.1
      rw [(Cursor.next?_eq_some hnext).1, hyx]
    · cases h
  · cases h

theorem exists_of_behind? {opening : List Char} (h : p.behind? opening = some rest)
    (hd : d ∈ p.ends [c]) : ∃ c', c.rest = opening ++ c'.rest ∧ d ∈ rest.ends [c'] := by
  fun_induction behind? opening p generalizing c with
  | case1 p =>
    cases h
    exact ⟨c, rfl, hd⟩
  | case2 x opening after ih =>
    simp only [ends, List.filterMap_cons, List.filterMap_nil] at hd
    cases hpass : c.pass? (.interval x x) with
    | none =>
      rw [hpass, ends_nil] at hd
      cases hd
    | some c' =>
      rw [hpass] at hd
      obtain ⟨c'', hrest, hd⟩ := ih h hd
      exact ⟨c'', by rw [rest_of_pass? hpass, hrest, List.cons_append], hd⟩
  | case3 => cases h
  | case4 => cases h

theorem exists_of_endsWith (hP : Onward P) (h : p.endsWith x = true) (hcs : ∀ c ∈ cs, P c)
    (hd : d ∈ p.ends cs) : ∃ e, P e ∧ e.rest = x :: d.rest := by
  fun_induction endsWith x p generalizing cs with
  | case1 set =>
    obtain ⟨e, he, hpass⟩ := List.mem_filterMap.1 hd
    rw [beq_iff_eq.1 h] at hpass
    exact ⟨e, hcs e he, rest_of_pass? hpass⟩
  | case2 first rest ih => exact ih h (ends_all hP first hcs) hd
  | case3 => cases h

end Pattern

/-- Every match of a rule starts with some characters, with others at its end behind these. -/
def Rule.Encloses (rule : Rule) (opening closing : List Char) : Prop :=
  ∀ c d, Scanner.ownMatch? rule c = some d →
    ∃ inner, Scanner.textBetween c d = String.ofList (opening ++ inner ++ closing)

/-- Whether the pattern of a rule tells that. -/
def Rule.encloses (rule : Rule) (opening : List Char) (closing : Option Char) : Bool :=
  (Pattern.parse? rule.pattern).any fun p => p.isFlat &&
    (p.behind? opening).any fun rest => closing.all rest.endsWith

theorem Rule.encloses_of {rule : Rule} {opening : List Char} {closing : Option Char}
    (h : rule.encloses opening closing = true) : rule.Encloses opening closing.toList := by
  intro c d hmatch
  obtain ⟨p, hp, hmatch⟩ := Option.bind_eq_some_iff.1 hmatch
  rw [Rule.encloses, hp, Option.any_some, Bool.and_eq_true] at h
  obtain ⟨hflat, hclosing⟩ := h
  rw [Pattern.Matcher.ofPattern, if_pos hflat] at hmatch
  obtain ⟨rest, hrest, hclosing⟩ := (Option.any_eq_true ..).1 hclosing
  obtain ⟨c', hc, hd⟩ := Pattern.exists_of_behind? hrest (List.mem_of_head? hmatch)
  have honward : Pattern.Onward c'.Reaches := fun h hnext => h.next hnext
  have hstart : ∀ e ∈ [c'], c'.Reaches e := by simpa using Cursor.Reaches.refl
  cases closing with
  | none =>
    obtain ⟨inner, hinner, -⟩ := (Pattern.ends_all honward rest hstart d hd).exists_passed
    refine ⟨inner, Scanner.textBetween_eq ?_⟩
    simp [hc, hinner]
  | some x =>
    obtain ⟨e, he, hlast⟩ := Pattern.exists_of_endsWith honward hclosing hstart hd
    obtain ⟨inner, hinner, -⟩ := he.exists_passed
    refine ⟨inner, Scanner.textBetween_eq ?_⟩
    simp [hc, hinner, hlast]

/-- What is enclosed lies between two characters, and is the text but for what encloses it. -/
theorem Rule.Encloses.inner {rule : Rule} {opening closing : List Char} {c d : Cursor}
    (h : rule.Encloses opening closing) (hmatch : Scanner.ownMatch? rule c = some d) {text : String}
    (htext : Scanner.textBetween c d = text) {e : Extent}
    (he : e = ⟨Text.byteLength opening, Text.byteLength text.toList - Text.byteLength closing⟩) :
    e.Within text ∧ text.toList = opening ++ (e.slice text).toList ++ closing := by
  obtain ⟨inner, hinner⟩ := h c d hmatch
  obtain rfl := htext.symm.trans hinner
  have hstop : Text.byteLength (opening ++ inner ++ closing) - Text.byteLength closing =
      Text.byteLength (opening ++ inner) := by
    rw [Text.byteLength_append, Nat.add_sub_cancel]
  rw [String.toList_ofList, hstop] at he
  subst he
  refine ⟨⟨?_, ?_, ?_⟩, ?_⟩
  · rw [Text.byteLength_append]
    exact Nat.le_add_right _ _
  · simpa using Text.isBoundary_append opening (inner ++ closing)
  · simpa using Text.isBoundary_append (opening ++ inner) closing
  · have hdrop := Text.dropBytes_append opening (inner ++ closing)
    have htake := Text.takeBytes_append inner closing
    simp only [Extent.slice, Extent.length, String.toList_ofList, List.append_assoc, hdrop,
      Text.byteLength_append, Nat.add_sub_cancel_left, htake]

namespace Filter

/-- The extents that the builders of filters cut out of the texts of tokens. -/
def cuts (name text : String) : List Extent :=
  let length := Text.byteLength text.toList
  match name with
  | "MEMBER" => [⟨1, length⟩]
  | "STRING" => [⟨1, length - 1⟩]
  | "BYTE" => [⟨2, length⟩]
  | _ => []

set_option maxRecDepth 100000 in
theorem ownBranches : Scanner.OwnBranches rules := by decide +kernel

set_option maxRecDepth 100000 in
theorem encloses_rules : ∀ rule ∈ rules,
    (rule.name = "MEMBER" → rule.encloses ['/'] none = true) ∧
    (rule.name = "STRING" → rule.encloses ['\''] '\'' = true) ∧
    (rule.name = "BYTE" → rule.encloses ['0', 'x'] none = true) := by
  decide +kernel

variable {rule : Rule} {c d : Cursor}

/-- These extents lie between two characters, and the builders take what they cover. -/
theorem cuts_sound (hrule : rule ∈ rules) (hmatch : Scanner.ownMatch? rule c = some d) {text : String}
    (htext : Scanner.textBetween c d = text) {e : Extent} (he : e ∈ cuts rule.name text) :
    e.Within text ∧
      (rule.name = "MEMBER" → ∀ target,
        member text [target] = Refusal.ofExpr (Expr.field? target (e.slice text))) ∧
      (rule.name = "STRING" →
        stringValue text = String.ofList (unescape (e.slice text).toList)) ∧
      (rule.name = "BYTE" → text.toList.drop 2 = (e.slice text).toList) := by
  obtain ⟨hmember, hstring, hbyte⟩ := encloses_rules rule hrule
  unfold cuts at he
  split at he
  · rename_i hname
    obtain ⟨hwithin, hchars⟩ :=
      (Rule.encloses_of (hmember hname)).inner hmatch htext (List.mem_singleton.1 he)
    refine ⟨hwithin, fun _ target => ?_, by simp [hname], by simp [hname]⟩
    rw [member, hchars]
    simp
  · rename_i hname
    obtain ⟨hwithin, hchars⟩ :=
      (Rule.encloses_of (hstring hname)).inner hmatch htext (List.mem_singleton.1 he)
    refine ⟨hwithin, by simp [hname], fun _ => ?_, by simp [hname]⟩
    rw [stringValue, hchars]
    simp
  · rename_i hname
    obtain ⟨hwithin, hchars⟩ :=
      (Rule.encloses_of (hbyte hname)).inner hmatch htext (List.mem_singleton.1 he)
    refine ⟨hwithin, by simp [hname], by simp [hname], fun _ => ?_⟩
    rw [hchars]
    simp
  · cases he

/-- Wherever a rule of filters matches, its builder may cut. -/
theorem cuttable {l : Language} (made : Language.make? rules = .ok l) : l.scanner.Cuttable cuts := by
  obtain ⟨hscanner, hrules, -⟩ := scanner_of_make? made
  have agrees := Scanner.agrees_of_ownBranches hscanner ownBranches
  intro c m hm
  obtain ⟨rule, hrule, htaken⟩ := ((Scanner.matchAt?_eq_some hscanner agrees).1 hm).exists_rule
  have hmatch := (Scanner.taken?_eq_some.1 htaken).1
  refine ⟨rule, hrules ▸ hrule, fun e he => ?_⟩
  exact (cuts_sound (List.mem_of_getElem? hrule) hmatch rfl he).1

end Filter

/-! ## No guard fails -/

/-- What a parse does, over a text. -/
def Attempt.ofParse (text : String) : Except ParseError Expr → Attempt Expr
  | .ok e => .done e
  | .error e => .failed (e.onText text)

/-- An error is at a stretch of the text, with both ends between characters. -/
structure ParseError.Inside (text : String) (e : ParseError) : Prop where
  ordered : e.extent.start ≤ e.extent.stop
  bounded : e.extent.stop ≤ Text.byteLength text.toList
  start_boundary : Text.isBoundary text.toList e.extent.start = true
  stop_boundary : Text.isBoundary text.toList e.extent.stop = true

theorem ParseError.inside_of_within {text : String} {e : ParseError} (h : e.extent.Within text) :
    e.Inside text := ⟨h.1, h.stop_le, h.2.1, h.2.2⟩

theorem Tracks.eq_ofParse {text : String} {P : Expr → Prop} {x : Attempt Expr}
    {r : Except ParseError Expr} (h : Tracks text id P x r) :
    x = .ofParse text r ∧ ∀ e, r = .error e → e.Inside text := by
  cases h with
  | done holds =>
    refine ⟨rfl, fun e he => ?_⟩
    cases he
  | failed within =>
    refine ⟨rfl, fun e he => ?_⟩
    cases he
    exact ParseError.inside_of_within within

/-- The guarded parse of a text does what the parse does, and so does not panic. An error is inside the
text. -/
structure Language.Guarded (l : Language) (cuts : String → String → List Extent) (text : String)
    (parameters : List Parameter) : Prop where
  parse_eq : Parlance.Guarded.parse l cuts text parameters = .ofParse text (l.parse text parameters)
  inside : ∀ e, l.parse text parameters = .error e → e.Inside text

/-- No guard fails in a language whose builders may cut what they cut. -/
theorem guarded_of_cuttable {rules : List Rule} {l : Language} (made : Language.make? rules = .ok l)
    {cuts : String → String → List Extent} (cuttable : l.scanner.Cuttable cuts) (text : String)
    (parameters : List Parameter) : l.Guarded cuts text parameters := by
  obtain ⟨hparse, hinside⟩ :=
    (Guarded.tracks_parse cuttable (scanner_of_make? made).2.2 text parameters).eq_ofParse
  exact ⟨hparse, hinside⟩

/-- No guard fails in a language whose builders are functions of whole texts. -/
theorem guarded_of_made {rules : List Rule} {l : Language} (made : Language.make? rules = .ok l)
    (text : String) (parameters : List Parameter) : l.Guarded (fun _ _ => []) text parameters :=
  guarded_of_cuttable made (Scanner.cuttable_of_make? (scanner_of_make? made).1) text parameters

/-- An error at the whole text is inside it. -/
theorem inside_of_fail {α : Type} {text : String} {fault : Fault} {e : ParseError}
    (h : (Extent.whole text).fail fault = (.error e : Except ParseError α)) : e.Inside text := by
  cases h
  exact ParseError.inside_of_within (.whole text)

namespace Arithmetic

theorem inside_of_toDecimal {text : String} {body : Expr} {e : ParseError}
    (h : toDecimal text body = .error e) : e.Inside text := by
  unfold toDecimal at h
  split at h
  · split at h
    · cases h
    · exact inside_of_fail h
  · exact inside_of_fail h
  · exact inside_of_fail h

theorem inside_of_compile {text : String} {parameters : List Parameter} {e : ParseError}
    (h : compile text parameters = .error e) : e.Inside text := by
  have hguarded := guarded_of_made (make?_eq_ofRules rules_fit) text parameters
  rcases bind_eq_error.1 h with h | ⟨body, -, h⟩
  · exact hguarded.inside e h
  rcases bind_eq_error.1 h with h | ⟨converted, -, h⟩
  · exact inside_of_toDecimal h
  · cases h

end Arithmetic

theorem Filter.inside_of_parse {text : String} {record : RecordType} {e : ParseError}
    (h : parse text record = .error e) : e.Inside text := by
  have made := make?_eq_ofRules rules_fit
  have hguarded := guarded_of_cuttable made (cuttable made) text [⟨none, record.type⟩]
  rcases bind_eq_error.1 h with h | ⟨body, -, h⟩
  · exact hguarded.inside e h
  split at h
  · cases h
  · exact inside_of_fail h

/-- No guard of a parse fails, in any language whose builders are functions of whole texts and in the
languages of formulas and of filters with all that their builders cut; and an error is inside the text. -/
theorem guards_hold :
    (∀ (rules : List Rule) (l : Language), Language.make? rules = .ok l →
      ∀ text parameters, l.Guarded (fun _ _ => []) text parameters) ∧
    (∀ text parameters, Arithmetic.language.Guarded (fun _ _ => []) text parameters) ∧
    (∀ text parameters e, Arithmetic.compile text parameters = .error e → e.Inside text) ∧
    (∀ text parameters, Filter.language.Guarded Filter.cuts text parameters) ∧
    (∀ text record e, Filter.parse text record = .error e → e.Inside text) := by
  have hfilter := make?_eq_ofRules Filter.rules_fit
  exact ⟨fun _ _ => guarded_of_made, guarded_of_made (make?_eq_ofRules Arithmetic.rules_fit),
    fun _ _ _ => Arithmetic.inside_of_compile, guarded_of_cuttable hfilter (Filter.cuttable hfilter),
    fun _ _ _ => Filter.inside_of_parse⟩

set_option maxRecDepth 100000 in
/-- A character of two bytes that no rule matches is an error from its first byte to its last one. -/
theorem guards_hold_sum :
    ∃ l e, Language.make? sumRules = .ok l ∧ l.Guarded (fun _ _ => []) "(1é" [] ∧
      l.parse "(1é" [] = .error e ∧ e.extent = ⟨2, 4⟩ := by
  have made := make?_eq_ofRules sumRules_fit
  have herror : (match (Language.ofRules sumRules sumRules_fit).parse "(1é" [] with
      | .ok _ => none
      | .error e => some e.extent) = some ⟨2, 4⟩ := by decide +kernel
  have hguarded := guards_hold.1 sumRules _ made "(1é" []
  split at herror
  · cases herror
  · rename_i e he
    exact ⟨_, e, made, hguarded, he, Option.some.inj herror⟩

end Parlance
