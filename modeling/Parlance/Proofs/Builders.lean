import Parlance.Language.Arithmetic
import Parlance.Language.Filter
import Parlance.Proofs.Evaluation
import Parlance.Proofs.Layers
import Parlance.Proofs.Scanning

/-!
# Typed formulas and filters

Every builder of the two languages makes typed expressions of typed ones (`Arithmetic.sound_rules`,
`Filter.sound_rules`), so that a formula or a filter that is accepted has a value of its type for every
record of its schema, unless it fails in a way that typing does not rule out.
-/

namespace Parlance

/-! ## Answers of builders -/

@[simp] theorem Refusal.ofExpr_eq_ok {α : Type} {x : Except ExprError α} {a : α} :
    Refusal.ofExpr x = .ok a ↔ x = .ok a :=
  mapError_eq_ok

@[simp] theorem Refusal.ofValue_eq_ok {α : Type} {x : Except ValueError α} {a : α} :
    Refusal.ofValue x = .ok a ↔ x = .ok a :=
  mapError_eq_ok

namespace Expr

variable {wf : Prop} {Γ : List ValueType}

theorem typed_ofValue {v : Value} (hv : v.isScalar = true) : (ofValue v).Typed wf Γ := by
  refine .constant ((Value.inhabits_iff_of_isScalar hv).2 (Value.underlying_type v)) fun _ => ?_
  cases v <;> first | rfl | cases hv

theorem type_collection? {op : CollectionOp} {source x : Expr} {slot : Option Nat}
    {body : Option Expr} (h : collection? op source slot body = .ok x) : x.type = .bool := by
  unfold collection? at h
  split at h
  · cases h
  split at h <;> split at h <;> cases h <;> rfl

/-- An argument has the type that it is converted to, save that null may stand for an enum. -/
theorem type_convertTo {e x : Expr} {t : ValueType} (ht : t.enumType? = none)
    (h : e.convertTo t = .ok (some x)) : x.type = t := by
  unfold convertTo at h
  split at h
  · cases h
    assumption
  split at h
  · split at h
    · cases h
      exact type_converted e t
    · cases h
  split at h
  · cases h
    exact type_converted e t
  split at h
  · rename_i d _ hd
    rw [ValueType.enumType?_eq_some.2 hd] at ht
    cases ht
  · split at h
    · cases h
      exact type_converted e t
    · cases h

/-- A literal is typed if it is read as a value that is made of no others. -/
theorem typed_literal {α : Type} {f : α → Value} (hf : ∀ a, (f a).isScalar = true)
    {x : Except ValueError α} {e : Expr}
    (h : Refusal.ofValue (x.map fun a => ofValue (f a)) = .ok e) : e.Typed wf Γ := by
  obtain ⟨a, -, rfl⟩ := map_eq_ok.1 (Refusal.ofValue_eq_ok.1 h)
  exact typed_ofValue (hf a)

theorem typed_ofParameter {parameters : List Parameter} {slot : Nat} {p : Parameter}
    (h : parameters[slot]? = some p) : (ofParameter slot p).Typed wf (parameters.map Parameter.type) := by
  refine .parameter ?_
  rw [List.getElem?_map, h]
  rfl

end Expr

/-! ## Rules -/

namespace RuleKind

/-- An operator on two operands of a common type. -/
theorem sound_binary {name pattern : String} {precedence : Int}
    {build : Expr → Expr → Except Refusal Expr}
    (h : ∀ {wf : Prop} {Γ : List ValueType} {left right e : Expr}, (wf → ∀ t ∈ Γ, t.WellFormed) →
      left.Typed wf Γ → right.Typed wf Γ → build left right = .ok e → e.Typed wf Γ) :
    (Rule.binary name pattern precedence build).kind.Sound := by
  intro wf Γ text args e hΓ hargs hbuild
  dsimp only at hbuild
  split at hbuild
  · obtain ⟨hl, hr⟩ := List.forall_mem_cons.1 hargs
    obtain ⟨hl, hr⟩ := Pairing.typed_implicit hΓ hl (List.forall_mem_singleton.1 hr)
    exact h hΓ hl hr hbuild
  · cases hbuild

theorem sound_unary {name pattern : String} {precedence : Int} {position : Side}
    {build : Expr → Except Refusal Expr}
    (h : ∀ {wf : Prop} {Γ : List ValueType} {operand e : Expr}, (wf → ∀ t ∈ Γ, t.WellFormed) →
      operand.Typed wf Γ → build operand = .ok e → e.Typed wf Γ) :
    (Rule.unary name pattern precedence position build).kind.Sound := by
  intro wf Γ text args e hΓ hargs hbuild
  dsimp only at hbuild
  split at hbuild
  · exact h hΓ (List.forall_mem_singleton.1 hargs) hbuild
  · cases hbuild

theorem sound_functionCall {functions : List Function} (h : ∀ f ∈ functions, f.Sound) :
    (functionCall (functions.map Overload.ofFunction)).Sound := by
  intro o ho
  obtain ⟨f, hf, rfl⟩ := List.mem_map.1 ho
  refine ⟨fun types htypes => ?_, fun hΓ hargs hbuild => ?_⟩
  · cases htypes
    exact (h f hf).parameters
  · exact Expr.Typed.call? (h f hf) hargs (Refusal.ofExpr_eq_ok.1 hbuild)

/-- Literals take nothing from the scope. -/
theorem sound_operand {name pattern : String} {build : String → Except Refusal Expr}
    (h : ∀ {wf : Prop} {Γ : List ValueType} {text : String} {e : Expr}, build text = .ok e → e.Typed wf Γ) :
    (Rule.operand name pattern build).kind.Sound :=
  fun _ _ _ _ _ hbuild => h hbuild

end RuleKind

/-- What a language of sound rules makes of a text is typed over the parameters at the start. -/
theorem Language.typed_of_parse {wf : Prop} {rules : List Rule} {l : Language}
    (made : Language.make? rules = .ok l) (h : ∀ r ∈ rules, r.kind.Sound) {text : String}
    {parameters : List Parameter} {e : Expr}
    (hscope : wf → ∀ t ∈ parameters.map Parameter.type, t.WellFormed)
    (hparse : l.parse text parameters = .ok e) : e.Typed wf (parameters.map Parameter.type) := by
  obtain ⟨x, hx, rfl⟩ := Trace.exists_of_parse hparse
  exact Trace.typed_of_parse (linked_of_make? made) (forall_kind_of_make? made trivial h) hscope
    (l.scanner.ordered_scan text) hx

/-- What a typed body denotes for arguments of the types of the parameters. -/
theorem Lambda.outcome_invoke {f : Lambda} {args : List Value}
    (hbody : f.body.Typed True (f.parameters.map Parameter.type))
    (hargs : List.Forall₂ Value.Inhabits args (f.parameters.map Parameter.type)) :
    Outcome (·.Inhabits f.returns) (f.invoke args) := by
  have hlength : args.length = f.parameters.length := by simpa using hargs.length_eq
  rw [invoke, if_neg (not_not.2 hlength)]
  exact (hbody.yields hargs).1

/-! ## Decimal formulas -/

namespace Arithmetic

theorem ofDouble_sound (name : String) (f : Float → Float) : (ofDouble name f).Sound where
  returns := rfl
  parameters := by simp [ofDouble, ValueType.WellFormed, ValueType.wellFormed]
  body _ h := by
    obtain ⟨x, -, h⟩ := bind_eq_ok.1 h
    cases h
    rfl

theorem ofDoubles_sound (name : String) (f : Float → Float → Float) : (ofDoubles name f).Sound where
  returns := rfl
  parameters := by simp [ofDoubles, ValueType.WellFormed, ValueType.wellFormed]
  body _ h := by
    obtain ⟨x, -, h⟩ := bind_eq_ok.1 h
    obtain ⟨y, -, h⟩ := bind_eq_ok.1 h
    cases h
    rfl

theorem round_sound : round.Sound where
  returns := rfl
  parameters := by simp [round, ValueType.WellFormed, ValueType.wellFormed]
  body _ h := by
    obtain ⟨d, -, h⟩ := bind_eq_ok.1 h
    cases h
    rfl

theorem roundPlaces_sound : roundPlaces.Sound where
  returns := rfl
  parameters := by simp [roundPlaces, ValueType.WellFormed, ValueType.wellFormed]
  body _ h := by
    obtain ⟨places, -, h⟩ := bind_eq_ok.1 h
    obtain ⟨d, -, h⟩ := bind_eq_ok.1 h
    cases h
    rfl

theorem functions_sound : ∀ entry ∈ functions, ∀ f ∈ entry.2.2, f.Sound := by
  simp [functions, ofDouble_sound, ofDoubles_sound, round_sound, roundPlaces_sound]

theorem operator_sound (name pattern : String) (precedence : Int) (op : BinaryOp) :
    (operator name pattern precedence op).kind.Sound :=
  RuleKind.sound_binary fun _ hl hr h => hl.binary? hr (Refusal.ofExpr_eq_ok.1 h)

/-- A path leads from one typed field to the next. -/
theorem typed_path {wf : Prop} {Γ : List ValueType} {names : List String} {target e : Expr}
    (htarget : target.Typed wf Γ) (h : names.foldlM Expr.field? target = .ok e) : e.Typed wf Γ := by
  induction names generalizing target with
  | nil =>
    cases h
    exact htarget
  | cons name names ih =>
    rw [List.foldlM_cons] at h
    obtain ⟨next, hnext, h⟩ := bind_eq_ok.1 h
    exact ih (htarget.field? hnext) h

theorem property_sound : (RuleKind.operand property).Sound := by
  intro wf text parameters e _ h
  unfold property at h
  split at h
  · cases h
  · exact typed_path (Expr.typed_ofParameter rfl) (Refusal.ofExpr_eq_ok.1 h)

theorem sound_rules : ∀ r ∈ rules, r.kind.Sound := by
  intro r hr
  simp only [rules, List.mem_append, List.mem_cons, List.not_mem_nil, or_false, List.mem_map] at hr
  rcases hr with ((rfl | rfl) | ⟨entry, hentry, rfl⟩) | rfl | rfl | rfl | rfl | rfl | rfl | rfl | rfl |
    rfl | rfl
  case inl.inl.inl =>
    exact RuleKind.sound_operand fun h => Expr.typed_literal (f := Value.number) (fun _ => rfl) h
  case inl.inl.inr =>
    refine RuleKind.sound_operand fun h => ?_
    cases h
    exact Expr.typed_ofValue rfl
  case inl.inr => exact RuleKind.sound_functionCall (functions_sound entry hentry)
  all_goals first
    | exact operator_sound _ _ _ _
    | exact property_sound
    | trivial

/-- A formula over typed parameters is typed, and is a decimal. -/
theorem typed_of_compile {wf : Prop} {text : String} {parameters : List Parameter} {f : Lambda}
    (hscope : wf → ∀ t ∈ parameters.map Parameter.type, t.WellFormed)
    (h : compile text parameters = .ok f) :
    f.parameters = parameters ∧ f.body.Typed wf (parameters.map Parameter.type) ∧
      f.returns = .number .decimal := by
  obtain ⟨body, hbody, h⟩ := bind_eq_ok.1 h
  obtain ⟨converted, hconverted, h⟩ := bind_eq_ok.1 h
  cases h
  have hbody := Language.typed_of_parse (make?_eq_ofRules rules_fit) sound_rules hscope hbody
  unfold toDecimal at hconverted
  dsimp only at hconverted
  split at hconverted
  · rename_i e he
    split at hconverted
    · cases hconverted
      exact ⟨rfl, Expr.typed_convertTo hbody (fun _ => rfl) he, Expr.type_convertTo rfl he⟩
    · simp at hconverted
  · simp at hconverted
  · simp at hconverted

end Arithmetic

/-! ## Filters -/

namespace Filter

/-- Functions of strings answer with values of their type, or with null. -/
theorem ofTexts_sound {name : String} {arity : Nat} {returns : ValueType}
    {body : List String → Except HostFailure Value} (hreturns : returns.WellFormed)
    (hbody : ∀ texts v, body texts = .ok v → v.Inhabits returns.orNull) :
    (ofTexts name arity returns body).Sound where
  returns := hreturns.orNull
  parameters t ht := by
    rw [List.eq_of_mem_replicate ht]
    rfl
  body {args v} _ h := by
    dsimp only [ofTexts] at h
    split at h
    · cases h
      rw [Value.Inhabits, Value.inhabits]
      exact ValueType.acceptsNull_orNull returns
    · obtain ⟨texts, -, h⟩ := bind_eq_ok.1 h
      exact hbody texts v h

theorem testOfTexts_sound (name : String) (test : String → String → Bool) :
    (testOfTexts name test).Sound := by
  refine ofTexts_sound rfl fun texts v h => ?_
  split at h
  · cases h
    rfl
  · cases h

theorem ofText_sound {name : String} {returns : ValueType} {body : String → Except HostFailure Value}
    (hreturns : returns.WellFormed) (hbody : ∀ text v, body text = .ok v → v.Inhabits returns.orNull) :
    (ofText name returns body).Sound := by
  refine ofTexts_sound hreturns fun texts v h => ?_
  split at h
  · exact hbody _ v h
  · cases h

theorem inhabits_intResult {n : Int} {v : Value} (h : intResult n = .ok v) :
    v.Inhabits (ValueType.number .int).orNull := by
  unfold intResult at h
  split at h
  · rename_i w hw
    cases h
    obtain ⟨m, hm, rfl⟩ := Option.map_eq_some_iff.1 hw
    refine (Value.inhabits_iff_of_isScalar rfl).2 ?_
    rw [Value.type, Number.kind_of_ofInt? hm]
    rfl
  · cases h

theorem round_sound : round.Sound where
  returns := rfl
  parameters := by simp [round, ValueType.WellFormed, ValueType.wellFormed]
  body {args v} hargs h := by
    obtain ⟨x, rest, hx, -, rfl⟩ := List.forall₂_cons_right_iff.1 hargs
    dsimp only [round] at h
    split at h
    · cases h
      rfl
    · rename_i heq
      cases heq
      cases hx
    · cases h

theorem datePart_sound (name : String) (part : Calendar.WallTime → Int) {type : ValueType}
    (htype : type.WellFormed) : (datePart name part type).Sound where
  returns := rfl
  parameters := List.forall_mem_singleton.2 htype.orNull
  body {args v} _ h := by
    dsimp only [datePart] at h
    split at h
    · exact inhabits_intResult h
    · split at h
      · exact inhabits_intResult h
      · cases h
    · cases h
      rfl
    · cases h

theorem dateParts_sound (name : String) (part : Calendar.WallTime → Int) :
    ∀ f ∈ dateParts name part, f.Sound := by
  simp [dateParts, @datePart_sound name part .dateTime rfl,
    @datePart_sound name part .dateTimeOffset rfl]

theorem functions_sound : ∀ entry ∈ functions, ∀ f ∈ entry.2.2, f.Sound := by
  have htext {name : String} (change : String → String) :
      (ofText name .string fun s => .ok (.string (change s))).Sound :=
    ofText_sound rfl fun text v h => by cases h; rfl
  have hlength : (ofText "length" (.number .int) fun s => intResult s.length).Sound :=
    ofText_sound rfl fun text v h => inhabits_intResult h
  simp only [functions, List.forall_mem_cons, List.not_mem_nil, IsEmpty.forall_iff, implies_true,
    and_true, testOfTexts_sound, htext, hlength, round_sound, true_and]
  exact ⟨dateParts_sound _ _, dateParts_sound _ _, dateParts_sound _ _, dateParts_sound _ _,
    dateParts_sound _ _, dateParts_sound _ _⟩

theorem typed_truthful {wf : Prop} {Γ : List ValueType} {e : Expr}
    (hΓ : wf → ∀ t ∈ Γ, t.WellFormed)
    (h : e.Typed wf Γ) : (truthful e).Typed wf Γ := by
  unfold truthful
  cases hx : e.toBoolean? with
  | none => exact h
  | some x => exact (Expr.typed_toBoolean? hΓ h hx).1

theorem quantifier_sound (op : CollectionOp) : (RuleKind.collectionBracket (quantifier op)).Sound := by
  intro text source e body h
  have h := Refusal.ofExpr_eq_ok.1 h
  refine ⟨by rw [Expr.type_collection? h]; rfl, fun wf Γ element hΓ hsource helement hbody => ?_⟩
  refine hsource.collection? helement (fun slot hslot => ?_) (fun b hb => ?_) h
  · obtain ⟨p, hp, rfl⟩ := Option.map_eq_some_iff.1 hslot
    exact hbody.slot p hp
  · obtain ⟨predicate, hpredicate, rfl⟩ := Option.map_eq_some_iff.1 hb
    rw [Option.isSome_map]
    refine typed_truthful (fun hwf t ht => ?_) (hbody.body predicate hpredicate)
    split at ht
    · rcases List.mem_append.1 ht with ht | ht
      · exact hΓ hwf t ht
      · rw [List.mem_singleton.1 ht]
        exact (hsource.wellFormed hwf (hΓ hwf)).element helement
    · exact hΓ hwf t ht

theorem plain_sound (name pattern : String) (precedence : Int) (op : BinaryOp) :
    (Rule.binary name pattern precedence (plain op)).kind.Sound :=
  RuleKind.sound_binary fun _ hl hr h => hl.binary? hr (Refusal.ofExpr_eq_ok.1 h)

theorem connective_sound (name pattern : String) (precedence : Int) (op : BinaryOp) :
    (Rule.binary name pattern precedence (connective op)).kind.Sound :=
  RuleKind.sound_binary fun hΓ hl hr h =>
    (typed_truthful hΓ hl).binary? (typed_truthful hΓ hr) (Refusal.ofExpr_eq_ok.1 h)

theorem equality_sound (name pattern : String) (precedence : Int) (op : BinaryOp) :
    (Rule.binary name pattern precedence (equality op)).kind.Sound := by
  refine RuleKind.sound_binary fun hΓ hl hr h => ?_
  have hnumber := Pairing.typed_enumNumber hΓ hl hr
  unfold equality at h
  dsimp only at h
  split at h
  · exact hnumber.1.binary? hnumber.2 (Refusal.ofExpr_eq_ok.1 h)
  · obtain ⟨pair, hpair, h⟩ := bind_eq_ok.1 h
    have htyped := Pairing.typed_enumString hΓ hnumber.1 hnumber.2 (mapError_eq_ok.1 hpair)
    exact htyped.1.binary? htyped.2 (Refusal.ofExpr_eq_ok.1 h)

theorem property_sound : (RuleKind.operand property).Sound := by
  intro wf text parameters e _ h
  unfold property at h
  dsimp only at h
  split at h
  · rename_i p slot hp
    cases h
    have hmem := List.mem_reverse.1 (List.mem_of_find?_eq_some hp)
    exact Expr.typed_ofParameter (List.mem_zipIdx_iff_getElem?.1 hmem)
  · exact (Expr.typed_ofParameter rfl).field? (Refusal.ofExpr_eq_ok.1 h)
  · cases h

theorem member_sound {positions : List Side} {precedence : Option Int} :
    (RuleKind.operator positions precedence member).Sound := by
  intro wf Γ text args e _ hargs h
  unfold member at h
  split at h
  · exact (List.forall_mem_singleton.1 hargs).field? (Refusal.ofExpr_eq_ok.1 h)
  · cases h

theorem literals_sound : ∀ r ∈ literals, r.kind.Sound := by
  have hnumber (name pattern : String) (kind : NumericKind) :
      (numberRule name pattern kind).kind.Sound :=
    RuleKind.sound_operand fun h => Expr.typed_literal (f := Value.number) (fun _ => rfl) h
  simp only [literals, List.forall_mem_cons, List.not_mem_nil, IsEmpty.forall_iff, implies_true,
    and_true, hnumber]
  refine ⟨?_, ?_, ?_, ?_, ?_, ?_, ?_⟩
  · exact RuleKind.sound_operand fun h => Expr.typed_literal (f := Value.guid) (fun _ => rfl) h
  · exact RuleKind.sound_operand fun h => Expr.typed_literal (f := Value.dateTime) (fun _ => rfl) h
  · exact RuleKind.sound_operand fun h =>
      Expr.typed_literal (f := Value.dateTimeOffset) (fun _ => rfl) h
  · refine RuleKind.sound_operand fun h => ?_
    cases h
    exact Expr.typed_ofValue rfl
  · refine RuleKind.sound_operand fun {wf Γ text e} h => ?_
    unfold byteValue at h
    split at h
    · cases h
      exact Expr.typed_ofValue rfl
    · cases h
  · refine RuleKind.sound_operand fun h => ?_
    cases h
    exact Expr.typed_null (fun _ => rfl) rfl
  · refine RuleKind.sound_operand fun h => ?_
    cases h
    exact Expr.typed_ofValue rfl

theorem sound_rules : ∀ r ∈ rules, r.kind.Sound := by
  intro r hr
  simp only [rules, List.mem_append, List.mem_cons, List.not_mem_nil, or_false, List.mem_map] at hr
  rcases hr with ((hr | rfl | rfl) | ⟨entry, hentry, rfl⟩) | hr
  · exact literals_sound r hr
  · exact quantifier_sound .any
  · exact quantifier_sound .all
  · exact RuleKind.sound_functionCall (functions_sound entry hentry)
  have hnot : (Rule.unary "NOT" "\\bnot\\b" 19 .right fun operand =>
      Refusal.ofExpr (Expr.unary? .not (truthful operand))).kind.Sound :=
    RuleKind.sound_unary fun hΓ h hx => (typed_truthful hΓ h).unary? (Refusal.ofExpr_eq_ok.1 hx)
  rcases hr with rfl | rfl | rfl | rfl | rfl | rfl | rfl | rfl | rfl | rfl | rfl | rfl | rfl | rfl |
    rfl | rfl | rfl | rfl | rfl | rfl | rfl
  all_goals first
    | exact equality_sound _ _ _ _
    | exact plain_sound _ _ _ _
    | exact connective_sound _ _ _ _
    | exact hnot
    | exact property_sound
    | exact member_sound
    | trivial

/-- A filter over a record type is typed, and is a truth value. -/
theorem typed_of_parse {wf : Prop} {text : String} {record : RecordType} {f : Lambda}
    (hrecord : wf → record.type.WellFormed) (h : parse text record = .ok f) :
    f.parameters = [⟨none, record.type⟩] ∧ f.body.Typed wf [record.type] ∧ f.returns = .bool := by
  obtain ⟨body, hbody, h⟩ := bind_eq_ok.1 h
  have hscope (hwf : wf) : ∀ t ∈ [(⟨none, record.type⟩ : Parameter)].map Parameter.type,
      t.WellFormed := List.forall_mem_singleton.2 (hrecord hwf)
  have hbody := Language.typed_of_parse (make?_eq_ofRules rules_fit) sound_rules hscope hbody
  split at h
  · rename_i predicate hpredicate
    cases h
    exact ⟨rfl, Expr.typed_toBoolean? hscope hbody hpredicate⟩
  · simp at h

end Filter

end Parlance
