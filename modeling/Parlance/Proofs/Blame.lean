import Parlance.Proofs.Cuts

/-!
# What errors point at

An error of a parse points at some bytes of the text, unless an operand or all arguments of a function
are missing (`Fault.isLack`): then it may point between two characters. The operator that an error is
about is a token of the text. Each step of a parse comes to such an error or leaves operands that hold
bytes and tokens of the text that wait (`Yields`), and so does a parse as a whole (`yields_parse`).
-/

namespace Parlance

/-! ## Extents that hold bytes -/

/-- The extent holds a byte. -/
def Extent.Filled (e : Extent) : Prop := e.start < e.stop

namespace Extent.Filled

variable {a : Extent}

theorem cover (h : a.Filled) (b : Extent) : (a.cover b).Filled :=
  (min_le_left _ _).trans_lt (lt_of_lt_of_le h (le_max_left _ _))

theorem coverAll (h : a.Filled) (es : List Extent) : (a.coverAll es).Filled := by
  induction es generalizing a with
  | nil => exact h
  | cons e es ih => exact ih (h.cover e)

end Extent.Filled

/-- The extents of operands hold bytes. -/
abbrev OperandsFilled (xs : List Operand) : Prop := ∀ o ∈ xs, o.extent.Filled

theorem OperandsFilled.coverAll {xs : List Operand} (h : OperandsFilled xs) (hne : xs ≠ []) :
    (Operand.coverAll xs).Filled := by
  cases xs with
  | nil => exact absurd rfl hne
  | cons x xs => exact (h x List.mem_cons_self).coverAll _

/-! ## Errors of a run -/

/-- An operand is missing, or all arguments of a function. -/
def Fault.isLack : Fault → Bool
  | operandExpected _ => true
  | argumentCount _ actual => actual == 0
  | _ => false

/-- An error of a run over some tokens: it points at some bytes unless something is missing, and its
operator is one of the tokens. -/
structure ParseError.Founded (ts : List Token) (e : ParseError) : Prop where
  filled : e.fault.isLack = true ∨ e.extent.Filled
  operator : ∀ op ∈ e.operator?, ∃ t ∈ ts, t.extent = op

/-- A step comes to a result of which something holds, or to an error of a run over some tokens. -/
inductive Yields {α : Type} (ts : List Token) (P : α → Prop) : Except ParseError α → Prop
  | result {a : α} (holds : P a) : Yields ts P (.ok a)
  | error {e : ParseError} (founded : e.Founded ts) : Yields ts P (.error e)

namespace Yields

variable {α β : Type} {ts : List Token} {P : α → Prop} {Q : β → Prop} {r : Except ParseError α}
  {e op : Extent} {fault : Fault}

theorem founded {error : ParseError} (h : Yields ts P r) (herror : r = .error error) :
    error.Founded ts := by
  subst herror
  cases h with
  | error founded => exact founded

theorem bind {f : α → Except ParseError β} (h : Yields ts P r) (hf : ∀ a, P a → Yields ts Q (f a)) :
    Yields ts Q (r >>= f) := by
  cases h with
  | result holds => exact hf _ holds
  | error founded => exact .error founded

/-- A fault at some bytes, about no operator. -/
theorem points (h : e.Filled) (hnone : (ParseError.mk e fault).operator? = none) :
    Yields ts P (e.fail fault) := by
  refine .error ⟨.inr h, fun op hop => ?_⟩
  rw [hnone] at hop
  cases hop

/-- An operator, bracket or delimiter misses an operand. -/
theorem lacks (hop : ∃ t ∈ ts, t.extent = op) :
    Yields ts P (e.fail (.operandExpected (some op))) := by
  refine .error ⟨.inl rfl, ?_⟩
  rintro _ ⟨⟩
  exact hop

/-- An operator or bracket has operands in excess. -/
theorem exceeds (h : e.Filled) (hop : ∃ t ∈ ts, t.extent = op) :
    Yields ts P (e.fail (.operandUnexpected (some op))) := by
  refine .error ⟨.inr h, ?_⟩
  rintro _ ⟨⟩
  exact hop

theorem checked (h : e.Filled) (r : Except Refusal α) :
    Yields ts (fun _ => True) (e.checked r) := by
  cases r with
  | ok a => exact .result trivial
  | error refusal => exact .points h rfl

end Yields

/-! ## Reduction -/

variable {g : Grammar} {ts : List Token} {op opening close args : Extent} {top : Activation}
  {operators below : List Activation} {operands contents : List Operand} {s : ParseState} {t : Token}

theorem yields_takeOperands {positions : List Side} {boundary : Nat} (hop : ∃ t ∈ ts, t.extent = op)
    (h : OperandsFilled operands) :
    Yields ts (fun p => OperandsFilled p.2) (takeOperands op positions boundary operands) := by
  have hright : OperandsFilled (Operand.splitRight op operands).1 :=
    fun o ho => h o ((List.takeWhile_sublist _).mem (List.mem_reverse.1 ho))
  unfold takeOperands
  dsimp only
  split
  · rename_i hlt
    have hexcess : OperandsFilled ((Operand.splitRight op operands).1.drop (positions.count .right)) :=
      fun o ho => hright o (List.mem_of_mem_drop ho)
    exact .exceeds (hexcess.coverAll (by simpa using hlt)) hop
  split
  · exact .lacks hop
  split
  · exact .lacks hop
  · exact .result fun o ho => h o (List.mem_of_mem_drop (List.mem_of_mem_drop ho))

/-- The tokens of a run are not empty. -/
abbrev TokensFilled (ts : List Token) : Prop := ∀ t ∈ ts, t.extent.Filled

theorem yields_reduce (hts : TokensFilled ts) (htop : top.token ∈ ts) (h : OperandsFilled operands) :
    Yields ts OperandsFilled (reduce g top below operands) := by
  have hfilled : top.extent.Filled := hts _ htop
  unfold reduce
  split
  · refine (yields_takeOperands ⟨_, htop, rfl⟩ h).bind fun ⟨args, rest⟩ hrest => ?_
    have hextent := hfilled.coverAll (args.map Operand.extent)
    refine (Yields.checked hextent _).bind fun expr _ => .result ?_
    exact List.forall_mem_cons.2 ⟨hextent, hrest⟩
  · exact .points hfilled rfl
  · exact .points hfilled rfl
  · exact .points hfilled rfl
  · exact .points hfilled rfl
  · exact .result h

/-- What waits are tokens of a run. -/
abbrev WaitFrom (ts : List Token) (operators : List Activation) : Prop := ∀ a ∈ operators, a.token ∈ ts

theorem yields_foldWhile {folds : RuleKind → Bool} (hts : TokensFilled ts)
    (hwait : WaitFrom ts operators) (h : OperandsFilled operands) :
    Yields ts (fun p => WaitFrom ts p.1 ∧ OperandsFilled p.2) (foldWhile g folds operators operands) := by
  induction operators generalizing operands with
  | nil => exact .result ⟨hwait, h⟩
  | cons top below ih =>
    obtain ⟨htop, hbelow⟩ := List.forall_mem_cons.1 hwait
    unfold foldWhile
    split
    · exact (yields_reduce hts htop h).bind fun results hresults => ih hbelow hresults
    · exact .result ⟨hwait, h⟩

/-- The operands of a state hold bytes, and what waits are tokens of a run. -/
structure ParseState.Drawn (ts : List Token) (s : ParseState) : Prop where
  operands : OperandsFilled s.operands
  operators : WaitFrom ts s.operators

namespace ParseState.Drawn

theorem foldWhile {folds : RuleKind → Bool} (hts : TokensFilled ts) (h : s.Drawn ts) :
    Yields ts (Drawn ts) (s.foldWhile g folds) :=
  (yields_foldWhile hts h.operators h.operands).bind fun _ hp => .result ⟨hp.2, hp.1⟩

theorem pushOperand {o : Operand} (h : s.Drawn ts) (ho : o.extent.Filled) :
    (s.pushOperand o).Drawn ts := ⟨List.forall_mem_cons.2 ⟨ho, h.operands⟩, h.operators⟩

theorem await (h : s.Drawn ts) (ht : t ∈ ts) : (s.await t).Drawn ts :=
  ⟨h.operands, List.forall_mem_cons.2 ⟨ht, h.operators⟩⟩

end ParseState.Drawn

/-! ## Calls -/

/-- The argument without a conversion holds bytes. -/
def MistypedFilled : Except Mistyped (List Expr) → Prop
  | .ok _ => True
  | .error m => m.operand.extent.Filled

theorem yields_convertArgs {types : List ValueType} (h : OperandsFilled contents) :
    Yields ts MistypedFilled (convertArgs contents types) := by
  induction contents generalizing types with
  | nil => exact .result trivial
  | cons x contents ih =>
    cases types with
    | nil => exact .result trivial
    | cons type types =>
      obtain ⟨hx, hcontents⟩ := List.forall_mem_cons.1 h
      unfold convertArgs
      split
      · refine (ih hcontents).bind fun rest hrest => .result ?_
        cases rest with
        | ok exprs => exact trivial
        | error m => exact hrest
      · exact .result hx
      · exact .points hx rfl
      · exact .points hx rfl

theorem yields_convert {o : Overload} (h : OperandsFilled contents) :
    Yields ts MistypedFilled (o.convert contents) := by
  unfold Overload.convert
  split
  · exact yields_convertArgs h
  · exact .result trivial

theorem yields_callFirst {single : Bool} (h : OperandsFilled contents) (hopening : opening.Filled)
    (hargs : args.Filled) (candidates : List Overload) :
    Yields ts (fun _ => True) (callFirst contents opening args single candidates) := by
  induction candidates with
  | nil => exact .points hargs rfl
  | cons o candidates ih =>
    refine (yields_convert h).bind fun converted hconverted => ?_
    cases converted with
    | ok exprs => exact .checked (hopening.cover args) _
    | error m =>
      dsimp only
      split
      · exact .points hconverted rfl
      · exact ih

/-- Where there is no argument, the first candidate is called. -/
theorem callFirst_no_contents {single : Bool} {o : Overload} {candidates : List Overload} :
    callFirst [] opening args single (o :: candidates) = (opening.cover args).checked (o.build []) := by
  have hconvert : o.convert [] = .ok (.ok []) := by
    unfold Overload.convert
    cases o.parameters <;> rfl
  rw [callFirst, hconvert]
  rfl

theorem yields_callFunction {overloads : List Overload} (h : OperandsFilled contents)
    (hopening : opening.Filled) :
    Yields ts (fun o => o.extent.Filled) (callFunction overloads contents opening close) := by
  cases contents with
  | nil =>
    unfold callFunction
    dsimp only
    split
    · exact .error ⟨.inl rfl, nofun⟩
    · rename_i candidates hcandidates
      cases hc : Overload.candidates overloads ([] : List Operand).length with
      | nil => exact absurd hc hcandidates
      | cons o candidates =>
        rw [callFirst_no_contents]
        exact (Yields.checked (hopening.cover _) _).bind fun expr _ =>
          .result ((hopening.cover _).cover close)
  | cons x contents =>
    have hargs := h.coverAll (List.cons_ne_nil x contents)
    unfold callFunction
    dsimp only [List.isEmpty_cons]
    split
    · exact .points hargs rfl
    · exact (yields_callFirst h hopening hargs _).bind fun expr _ =>
        .result ((hopening.cover _).cover close)

/-! ## Brackets -/

theorem yields_singleContent (h : OperandsFilled contents) (hopening : opening.Filled)
    (hop : ∃ t ∈ ts, t.extent = opening) :
    Yields ts (fun o => o.extent.Filled) (singleContent contents opening close) := by
  match contents, h with
  | [], _ => exact .lacks hop
  | [inner], _ => exact .result ((hopening.cover _).cover close)
  | x :: other :: others, h =>
    have hothers := (List.forall_mem_cons.1 h).2
    exact .exceeds (OperandsFilled.coverAll hothers (List.cons_ne_nil other others)) hop

theorem yields_takeSource (h : OperandsFilled operands) (hop : ∃ t ∈ ts, t.extent = opening) :
    Yields ts (fun p => p.1.extent.Filled ∧ OperandsFilled p.2) (takeSource opening operands) := by
  unfold takeSource
  split
  · split
    · exact .result (List.forall_mem_cons.1 h)
    · exact .lacks hop
  · exact .lacks hop

theorem yields_applyContents (hts : TokensFilled ts) (h : s.Drawn ts) (htop : top.token ∈ ts)
    (hcontents : OperandsFilled contents) :
    Yields ts (ParseState.Drawn ts) (s.applyContents g top contents close) := by
  have hopening : top.extent.Filled := hts _ htop
  have hop : ∃ t ∈ ts, t.extent = top.extent := ⟨_, htop, rfl⟩
  unfold ParseState.applyContents
  split
  · exact (yields_callFunction hcontents hopening).bind fun o ho => .result (h.pushOperand ho)
  · dsimp only
    split
    · rename_i x other others
      have hothers := (List.forall_mem_cons.1 hcontents).2
      have hexcess := OperandsFilled.coverAll hothers (List.cons_ne_nil other others)
      exact (Yields.exceeds (P := fun _ => False) hexcess hop).bind nofun
    · refine (yields_takeSource h.operands hop).bind fun ⟨source, rest⟩ ⟨hsource, hrest⟩ => ?_
      have hextent := (hsource.cover top.extent).cover close
      dsimp only
      split
      · exact (Yields.points (P := fun _ => False) hsource rfl).bind nofun
      · refine (Yields.checked hextent _).bind fun expr _ => ?_
        exact .result ⟨List.forall_mem_cons.2 ⟨hextent, hrest⟩, h.operators⟩
  · exact (yields_singleContent hcontents hopening hop).bind fun o ho => .result (h.pushOperand ho)

/-- What has been unwound holds bytes, and what waits are tokens of a run. -/
structure Unwound.Drawn (ts : List Token) (u : Unwound) : Prop where
  top : u.top.token ∈ ts
  contents : OperandsFilled u.contents
  operators : WaitFrom ts u.operators
  operands : OperandsFilled u.operands

theorem yields_unwind {links : BracketLinks} {previous : Extent} {separated : Bool}
    (hts : TokensFilled ts) (hwait : WaitFrom ts operators) (h : OperandsFilled operands)
    (hcontents : OperandsFilled contents) (hclose : close.Filled) :
    Yields ts (Unwound.Drawn ts)
      (unwind g links close previous separated contents operators operands) := by
  induction operators generalizing operands contents previous separated with
  | nil => exact .points hclose rfl
  | cons top below ih =>
    obtain ⟨htop, hbelow⟩ := List.forall_mem_cons.1 hwait
    have hop : ∃ t ∈ ts, t.extent = top.extent := ⟨_, htop, rfl⟩
    unfold unwind
    dsimp only
    split
    · split
      · rename_i htake
        obtain ⟨hx, hrest⟩ := List.forall_mem_cons.1 (eq_cons_of_takeBetween? htake ▸ h)
        exact .result ⟨htop, List.forall_mem_cons.2 ⟨hx, hcontents⟩, hbelow, hrest⟩
      · split
        · exact .lacks hop
        · exact .result ⟨htop, hcontents, hbelow, h⟩
    split
    · split
      · rename_i htake
        obtain ⟨hx, hrest⟩ := List.forall_mem_cons.1 (eq_cons_of_takeBetween? htake ▸ h)
        exact ih hbelow hrest (List.forall_mem_cons.2 ⟨hx, hcontents⟩)
      · exact .lacks hop
    · exact (yields_reduce hts htop h).bind fun results hresults => ih hbelow hresults hcontents

theorem yields_close (hts : TokensFilled ts) (h : s.Drawn ts) (ht : t ∈ ts) :
    Yields ts (ParseState.Drawn ts) (s.close g t) := by
  have hnone : OperandsFilled [] := nofun
  refine (yields_unwind hts h.operators h.operands hnone (hts t ht)).bind fun u hu => ?_
  exact yields_applyContents hts ⟨hu.operands, hu.operators⟩ hu.top hu.contents

/-! ## Tokens -/

theorem yields_accessorSource (hts : TokensFilled ts) (h : s.Drawn ts) (ht : t ∈ ts) :
    Yields ts (fun p => p.1.extent.Filled ∧ p.2.1.token ∈ ts ∧ WaitFrom ts p.2.2)
      (s.accessorSource g t) := by
  obtain ⟨parameters, operands, operators⟩ := s
  cases operators with
  | nil => exact .points (hts t ht) rfl
  | cons top below =>
    obtain ⟨htop, hbelow⟩ := List.forall_mem_cons.1 h.operators
    unfold ParseState.accessorSource
    dsimp only
    generalize (_ || _ : Bool) = misplaced
    cases misplaced with
    | true => exact .points (hts t ht) rfl
    | false =>
      refine (yields_takeSource h.operands ⟨_, htop, rfl⟩).bind fun p hp => ?_
      exact .result ⟨hp.1, htop, hbelow⟩

theorem yields_declareAccessor (hts : TokensFilled ts) (h : s.Drawn ts) (ht : t ∈ ts) :
    Yields ts (ParseState.Drawn ts) (s.declareAccessor g t) := by
  refine (yields_accessorSource hts h ht).bind fun ⟨source, top, below⟩ ⟨hsource, htop, hbelow⟩ => ?_
  dsimp only
  split
  · exact .points hsource rfl
  · split
    · exact .points (hts t ht) rfl
    · exact .result ⟨h.operands, List.forall_mem_cons.2 ⟨htop, hbelow⟩⟩

theorem yields_apply (hts : TokensFilled ts) (h : s.Drawn ts) (ht : t ∈ ts) :
    Yields ts (ParseState.Drawn ts) (s.apply g t) := by
  unfold ParseState.apply
  split
  · exact .result h
  · exact (Yields.checked (hts t ht) _).bind fun expr _ => .result (h.pushOperand (hts t ht))
  · dsimp only
    split
    · split
      · exact (h.foldWhile hts).bind fun s hs => .result (hs.await ht)
      · exact .result (h.await ht)
    · exact .result (h.await ht)
  · exact (h.foldWhile hts).bind fun s hs => .result (hs.await ht)
  · exact .result (h.await ht)
  · exact .result (h.await ht)
  · exact .result (h.await ht)
  · exact yields_declareAccessor hts h ht
  · exact yields_close hts h ht

/-- Along a run over some of the tokens, errors are founded in them. -/
theorem yields_applyAll {us : List Token} (hts : TokensFilled ts) (h : s.Drawn ts)
    (hus : ∀ t ∈ us, t ∈ ts) : Yields ts (ParseState.Drawn ts) (s.applyAll g us) := by
  induction us generalizing s with
  | nil => exact .result h
  | cons t us ih =>
    obtain ⟨ht, hus⟩ := List.forall_mem_cons.1 hus
    exact (yields_apply hts h ht).bind fun s hs => ih hs hus

theorem yields_finish (hts : TokensFilled ts) (h : s.Drawn ts) :
    Yields ts (fun _ => True) (s.finish g) := by
  refine (h.foldWhile hts).bind fun s hs => ?_
  obtain ⟨parameters, operands, operators⟩ := s
  match operands, hs.operands with
  | [], _ => exact .error ⟨.inl rfl, nofun⟩
  | [x], _ => exact .result trivial
  | x :: y :: others, hoperands => exact .error ⟨.inr (hoperands x List.mem_cons_self), nofun⟩

/-! ## Texts -/

open Pattern (Cursor)

variable {text : String} {parameters : List Parameter} {e : ParseError}

/-- Text that no rule matches is not empty. -/
theorem Scanner.filled_of_gap (s : Scanner) (c : Cursor) : ∀ gap ∈ (s.scanFrom c).gap?, gap.Filled := by
  induction hn : c.remaining using Nat.strong_induction_on generalizing c with
  | _ n ih =>
    intro gap hgap
    unfold scanFrom at hgap
    split at hgap
    · split at hgap
      · cases hgap
      · rename_i hrest
        cases hgap
        exact Nat.lt_add_of_pos_right (Text.byteLength_pos (by simpa using hrest))
    · split at hgap
      · rename_i hoffset
        cases hgap
        exact hoffset
      · split at hgap
        · rename_i hlt
          dsimp only at hgap
          split at hgap
          · exact ih _ (hn ▸ hlt) _ rfl gap hgap
          · exact ih _ (hn ▸ hlt) _ rfl gap hgap
        · cases hgap

theorem Scanner.filled_tokens (s : Scanner) (text : String) : TokensFilled (s.scan text).tokens :=
  fun _ ht => ((s.ordered_scan text).mem ht).2.1

/-- The end of a scan is an error only at text that no rule matches. -/
theorem yields_afterScan (s : Scanner) (text : String) :
    Yields ts (fun _ => True) (Language.afterScan (s.scan text)) := by
  unfold Language.afterScan
  split
  · rename_i gap hgap
    exact .points (s.filled_of_gap _ gap hgap) rfl
  · exact .result trivial

theorem yields_parse (l : Language) (text : String) (parameters : List Parameter) :
    Yields (l.scanner.scan text).tokens (fun _ => True) (l.parse text parameters) := by
  have hts := l.scanner.filled_tokens text
  have hstart : (ParseState.start parameters).Drawn (l.scanner.scan text).tokens := ⟨nofun, nofun⟩
  refine (yields_applyAll hts hstart fun _ ht => ht).bind fun s hs => ?_
  exact (yields_afterScan l.scanner text).bind fun _ _ => yields_finish hts hs

/-- No expression is read from an empty text. -/
theorem filled_of_parse {l : Language} {body : Expr} (h : l.parse text parameters = .ok body) :
    (Extent.whole text).Filled := by
  have hordered := l.scanner.ordered_scan text
  cases hts : (l.scanner.scan text).tokens with
  | nil =>
    obtain ⟨s, hs, h⟩ := bind_eq_ok.1 h
    rw [hts] at hs
    cases hs
    obtain ⟨_, -, h⟩ := bind_eq_ok.1 h
    cases h
  | cons t ts =>
    obtain ⟨-, hlt, hle⟩ := hordered.mem (hts ▸ List.mem_cons_self : t ∈ _)
    exact (Nat.zero_le _).trans_lt (hlt.trans_le hle)

theorem Arithmetic.yields_toDecimal {body : Expr} (h : (Extent.whole text).Filled) :
    Yields ts (fun _ => True) (toDecimal text body) := by
  unfold toDecimal
  dsimp only
  split
  · split
    · exact .result trivial
    · exact .points h rfl
  · exact .points h rfl
  · exact .points h rfl

theorem Arithmetic.founded_of_compile (h : compile text parameters = .error e) :
    e.Founded (language.scanner.scan text).tokens := by
  rcases bind_eq_error.1 h with h | ⟨body, hbody, h⟩
  · exact (yields_parse language text parameters).founded h
  rcases bind_eq_error.1 h with h | ⟨converted, -, h⟩
  · exact (yields_toDecimal (filled_of_parse hbody)).founded h
  · cases h

theorem Filter.founded_of_parse {record : RecordType} (h : parse text record = .error e) :
    e.Founded (language.scanner.scan text).tokens := by
  rcases bind_eq_error.1 h with h | ⟨body, hbody, h⟩
  · exact (yields_parse language text [⟨none, record.type⟩]).founded h
  split at h
  · cases h
  · exact (Yields.points (P := fun _ => True) (filled_of_parse hbody) rfl).founded h

end Parlance
