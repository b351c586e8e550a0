import Parlance.Proofs.Conservation
import Parlance.Proofs.Evaluation
import Parlance.Proofs.Links
import Parlance.Proofs.Timestamps

/-!
# Where a panic comes from

An operation on values may fail, but it does not panic; a host function may. Which values a function takes
without a panic is told by a property that values inherit from what they are made of (`Value.Inherited`):
the values that a function or an operation answers have it if its arguments have it. An expression whose
constants have the property, and whose functions uphold it (`Expr.MadeOf`), has a value with the property
or fails without a panic (`Expr.upholds_evaluate`). Expressions that are built from such ones are such
ones, hence so is what a language builds of a text if its rules do so (`Language.madeOf_of_parse`).
-/

namespace Parlance

/-! ## Inherited properties -/

namespace Value

variable {v w : Value} {vs : List Value} {Q : Value → Prop}

mutual

/-- Whether the clocks of all moments with an offset in a value show moments. -/
def isLocal : Value → Bool
  | dateTimeOffset m => decide m.Local
  | record _ fields => areLocal fields
  | list items => areLocal items
  | _ => true

/-- Whether the clocks of all moments with an offset in some values show moments. -/
def areLocal : List Value → Bool
  | [] => true
  | v :: vs => isLocal v && areLocal vs

end

/-- The clocks of all moments with an offset in the value show moments. -/
abbrev Local (v : Value) : Prop := v.isLocal = true

theorem areLocal_iff : areLocal vs = true ↔ ∀ v ∈ vs, v.Local := by
  induction vs with
  | nil => simp [areLocal]
  | cons v vs ih => simp [areLocal, ih]

/-- Whether a value is not made of others and has no offset. -/
def isPlain (v : Value) : Bool := !v matches dateTimeOffset _ | record .. | list _

/-- Values have the property if what they are made of has it, and plain values have it in any case. -/
structure Inherited (Q : Value → Prop) : Prop where
  plain {v : Value} (h : v.isPlain = true) : Q v
  offset {m : Calendar.OffsetMoment} (h : m.Local) : Q (.dateTimeOffset m)
  record {type : RecordType} {fields : List Value} : Q (.record type fields) ↔ ∀ v ∈ fields, Q v
  list {items : List Value} : Q (.list items) ↔ ∀ v ∈ items, Q v

theorem inherited_true : Inherited fun _ => True := by
  constructor <;> simp

theorem inherited_local : Inherited Local where
  plain {v} h := by cases v <;> first | rfl | cases h
  offset h := decide_eq_true h
  record := areLocal_iff
  list := areLocal_iff

end Value

/-! ## Results -/

/-- Whether an evaluation ends in a panic. -/
def EvalError.isPanic (e : EvalError) : Bool := e matches .panic _

/-- The result satisfies a predicate, or it is a failure without a panic. -/
def Regular {α : Type} (P : α → Prop) : Except EvalError α → Prop
  | .ok a => P a
  | .error e => e.isPanic = false

theorem Regular.of_operational {α : Type} {P : α → Prop} {r : Except EvalError α} (h : Operational r)
    (hr : ∀ a, r = .ok a → P a) : Regular P r := by
  cases r with
  | ok a => exact hr a rfl
  | error e =>
    have hoperational := h e rfl
    cases e <;> first | rfl | cases hoperational

/-- A host function that takes values with a property to such values, or fails without a panic. -/
def Function.Upholds (Q : Value → Prop) (f : Function) : Prop :=
  ∀ args : List Value, (∀ v ∈ args, Q v) → Regular Q ((f.body args).mapError f.failure)

namespace Value

variable {v w : Value} {vs : List Value} {Q : Value → Prop}

theorem regular_truth (v : Value) : Regular (fun _ => True) v.truth :=
  .of_operational v.operational_truth fun _ _ => trivial

namespace Inherited

variable (hQ : Inherited Q)

include hQ

theorem regular_fieldAt (hv : Q v) (index : Nat) (name : String) : Regular Q (v.fieldAt index name) := by
  refine .of_operational (v.operational_fieldAt index name) fun w h => ?_
  unfold fieldAt at h
  split at h
  · split at h
    · rename_i hfield
      cases h
      exact hQ.record.1 hv _ (List.mem_of_getElem? hfield)
    · cases h
  · cases h
  · cases h

theorem regular_elements (hv : Q v) : Regular (fun items => ∀ x ∈ items, Q x) v.elements := by
  refine .of_operational v.operational_elements fun items h => ?_
  unfold elements at h
  split at h
  · cases h
    exact hQ.list.1 hv
  · cases h
  · cases h

theorem regular_convert (hv : Q v) (t : ValueType) : Regular Q (v.convert t) := by
  refine .of_operational (v.operational_convert t) fun w h => ?_
  have hnumber {x : Except ValueError Number} (h : EvalError.ofValue (x.map number) = .ok w) : Q w := by
    cases x with
    | error e => cases h
    | ok n =>
      cases h
      exact hQ.plain rfl
  unfold convert at h
  split at h
  · split at h
    · cases h
      exact hv
    · cases h
  · exact hnumber h
  · unfold numberToEnum at h
    split at h
    · split at h
      · cases h
        exact hQ.plain rfl
      · cases h
    · cases h
  · unfold enumToNumber at h
    split at h
    · exact hnumber h
    · cases h
  · cases h
    exact hQ.plain rfl
  · cases h
    exact hQ.offset (Calendar.OffsetMoment.local_ofUniversal _)
  · unfold retype at h
    split at h
    · cases h
      exact hv
    · split at h
      · cases h
        exact hv
      · cases h

theorem regular_unary (op : UnaryOp) (v : Value) : Regular Q (v.unary op) := by
  refine .of_operational (v.operational_unary op) fun w h => hQ.plain ?_
  unfold unary at h
  split at h
  · cases h
    rfl
  · cases h
    rfl
  · obtain ⟨n, -, rfl⟩ := map_eq_ok.1 h
    rfl
  · cases h
  · cases h

theorem regular_binary (op : BinaryOp) (v w : Value) : Regular Q (v.binary op w) := by
  refine .of_operational (v.operational_binary w op) fun r h => hQ.plain ?_
  unfold binary at h
  split at h
  · cases h
    rfl
  split at h
  · split at h
    · cases h
      rfl
    · obtain ⟨o, -, rfl⟩ := map_eq_ok.1 h
      rfl
  split at h
  · cases h
    rfl
  split at h
  · obtain ⟨n, -, rfl⟩ := map_eq_ok.1 h
    rfl
  · cases h

end Inherited

end Value

/-! ## Computations -/

namespace Eval

variable {α β : Type} {Q : Value → Prop} {P : α → Prop} {P' : β → Prop}

/-- From an environment of values with a property the computation comes to a regular result, and it leaves
an environment of such values. -/
def Upholds (Q : Value → Prop) (P : α → Prop) (x : Eval α) : Prop :=
  ∀ env : List Value, (∀ v ∈ env, Q v) → Regular P (x.run env).1 ∧ ∀ v ∈ (x.run env).2, Q v

namespace Upholds

theorem pure {a : α} (h : P a) : Upholds Q P (Pure.pure a) := fun _ henv => ⟨h, henv⟩

theorem ofExcept {r : Except EvalError α} (h : Regular P r) : Upholds Q P (Eval.ofExcept r) :=
  fun _ henv => ⟨h, henv⟩

theorem bind {x : Eval α} {f : α → Eval β} (hx : Upholds Q P x) (hf : ∀ a, P a → Upholds Q P' (f a)) :
    Upholds Q P' (x >>= f) := by
  intro env henv
  obtain ⟨hresult, hafter⟩ := hx env henv
  rw [run_bind]
  rcases hrun : x.run env with ⟨e | a, after⟩
  · rw [hrun] at hresult hafter
    exact ⟨hresult, hafter⟩
  · rw [hrun] at hresult hafter
    exact hf a hresult after hafter

theorem read (slot : Nat) : Upholds Q Q (Eval.read slot) := by
  intro env henv
  rw [run_read]
  refine ⟨?_, henv⟩
  cases hslot : env[slot]? with
  | some v => exact henv v (List.mem_of_getElem? hslot)
  | none => rfl

theorem restoring {x : Eval α} (hx : Upholds Q P x) : Upholds Q P (Eval.restoring x) := by
  intro env henv
  obtain ⟨hresult, hafter⟩ := hx env henv
  exact ⟨hresult, fun v hv => hafter v (List.mem_of_mem_take hv)⟩

theorem quantifyItems (op : CollectionOp) (slot : Option Nat) {predicate : Eval Value} (hnull : Q .null)
    (h : Upholds Q Q predicate) {items : List Value} (hitems : ∀ v ∈ items, Q v) :
    Upholds Q (fun _ => True) (Eval.quantifyItems op slot predicate items) := by
  induction items with
  | nil => exact .pure trivial
  | cons item items ih =>
    obtain ⟨hitem, hitems⟩ := List.forall_mem_cons.1 hitems
    have hrest : Upholds Q (fun _ => True) (predicate >>= fun v => Eval.ofExcept v.truth >>= fun verdict =>
        if verdict == (op == .any) then Pure.pure verdict
        else Eval.quantifyItems op slot predicate items) := by
      refine h.bind fun v _ => (ofExcept v.regular_truth).bind fun verdict _ => ?_
      split
      · exact .pure trivial
      · exact ih hitems
    cases slot with
    | none => exact hrest
    | some slot =>
      intro env henv
      refine hrest (Eval.bind slot item env) fun v hv => ?_
      rcases List.mem_or_eq_of_mem_set hv with hv | rfl
      · rcases List.mem_append.1 hv with hv | hv
        · exact henv v hv
        · rw [List.eq_of_mem_replicate hv]
          exact hnull
      · exact hitem

end Upholds

end Eval

/-! ## Expressions -/

namespace Expr

mutual

/-- The constants in an expression have a property, and its functions uphold it. -/
def MadeOf (Q : Value → Prop) : Expr → Prop
  | .constant value _ => Q value
  | .parameter .. => True
  | .field target _ _ _ => MadeOf Q target
  | .convert operand _ => MadeOf Q operand
  | .unary _ operand _ => MadeOf Q operand
  | .binary _ left right _ => MadeOf Q left ∧ MadeOf Q right
  | .call function args => function.Upholds Q ∧ AreMadeOf Q args
  | .list items => AreMadeOf Q items
  | .collection _ source _ none => MadeOf Q source
  | .collection _ source _ (some body) => MadeOf Q source ∧ MadeOf Q body

/-- The constants in some expressions have a property, and their functions uphold it. -/
def AreMadeOf (Q : Value → Prop) : List Expr → Prop
  | [] => True
  | e :: es => MadeOf Q e ∧ AreMadeOf Q es

end

variable {Q : Value → Prop} {e x left right : Expr} {es : List Expr} {t : ValueType}

theorem areMadeOf_iff : AreMadeOf Q es ↔ ∀ e ∈ es, e.MadeOf Q := by
  induction es with
  | nil => simp [AreMadeOf]
  | cons e es ih => simp [AreMadeOf, ih]

mutual

/-- An expression that is made of values with an inherited property, and of functions that uphold it, has a
value with the property, or fails without a panic. -/
theorem upholds_evaluate (hQ : Value.Inherited Q) : ∀ {e : Expr}, e.MadeOf Q → e.evaluate.Upholds Q Q
  | .constant v t, h => by
    rw [evaluate]
    exact .pure h
  | .parameter slot name t, _ => by
    rw [evaluate]
    exact .read slot
  | .field target index name t, h => by
    rw [MadeOf] at h
    rw [evaluate]
    exact (upholds_evaluate hQ h).bind fun v hv => .ofExcept (hQ.regular_fieldAt hv index name)
  | .convert operand t, h => by
    rw [MadeOf] at h
    rw [evaluate]
    exact (upholds_evaluate hQ h).bind fun v hv => .ofExcept (hQ.regular_convert hv t)
  | .unary op operand t, h => by
    rw [MadeOf] at h
    rw [evaluate]
    exact (upholds_evaluate hQ h).bind fun v _ => .ofExcept (hQ.regular_unary op v)
  | .binary op left right t, h => by
    rw [MadeOf] at h
    rw [evaluate]
    refine (upholds_evaluate hQ h.1).bind fun a _ => ?_
    split
    · refine (Eval.Upholds.ofExcept a.regular_truth).bind fun decided _ => ?_
      split
      · exact .pure (hQ.plain rfl)
      · refine (upholds_evaluate hQ h.2).bind fun b _ => ?_
        exact (Eval.Upholds.ofExcept b.regular_truth).bind fun _ _ => .pure (hQ.plain rfl)
    · exact (upholds_evaluate hQ h.2).bind fun b _ => .ofExcept (hQ.regular_binary op a b)
  | .call f args, h => by
    rw [MadeOf] at h
    rw [evaluate]
    exact (upholds_evaluateItems hQ h.2).bind fun vs hvs => .ofExcept (h.1 vs hvs)
  | .list items, h => by
    rw [MadeOf] at h
    rw [evaluate]
    exact (upholds_evaluateItems hQ h).bind fun vs hvs => .pure (hQ.list.2 hvs)
  | .collection op source slot none, h => by
    rw [MadeOf] at h
    rw [evaluate]
    refine (upholds_evaluate hQ h).bind fun v hv => ?_
    exact (Eval.Upholds.ofExcept (hQ.regular_elements hv)).bind fun items _ => .pure (hQ.plain rfl)
  | .collection op source slot (some body), h => by
    rw [MadeOf] at h
    rw [evaluate]
    refine (upholds_evaluate hQ h.1).bind fun v hv => ?_
    refine (Eval.Upholds.ofExcept (hQ.regular_elements hv)).bind fun items hitems => ?_
    have hnull : Q .null := hQ.plain rfl
    have hverdict := Eval.Upholds.quantifyItems op slot hnull (upholds_evaluate hQ h.2) hitems
    exact hverdict.restoring.bind fun _ _ => .pure (hQ.plain rfl)

theorem upholds_evaluateItems (hQ : Value.Inherited Q) :
    ∀ {es : List Expr}, AreMadeOf Q es → (evaluateItems es).Upholds Q fun vs => ∀ v ∈ vs, Q v
  | [], _ => by
    rw [evaluateItems]
    exact .pure (by simp)
  | e :: es, h => by
    rw [AreMadeOf] at h
    rw [evaluateItems]
    refine (upholds_evaluate hQ h.1).bind fun v hv => ?_
    exact (upholds_evaluateItems hQ h.2).bind fun vs hvs => .pure (List.forall_mem_cons.2 ⟨hv, hvs⟩)

end

namespace MadeOf

theorem field? {name : String} (h : e.MadeOf Q) (hx : e.field? name = .ok x) : x.MadeOf Q := by
  unfold Expr.field? at hx
  split at hx
  · cases hx
  split at hx
  · cases hx
  · cases hx
    exact h

theorem unary? {op : UnaryOp} (h : e.MadeOf Q) (hx : Expr.unary? op e = .ok x) : x.MadeOf Q := by
  unfold Expr.unary? at hx
  split at hx
  · cases hx
    exact h
  · cases hx

theorem binary? {op : BinaryOp} (hl : left.MadeOf Q) (hr : right.MadeOf Q)
    (hx : Expr.binary? op left right = .ok x) : x.MadeOf Q := by
  unfold Expr.binary? at hx
  split at hx
  · cases hx
    exact ⟨hl, hr⟩
  · cases hx

theorem call? {f : Function} (hf : f.Upholds Q) (h : ∀ e ∈ es, e.MadeOf Q) (hx : Expr.call? f es = .ok x) :
    x.MadeOf Q := by
  unfold Expr.call? at hx
  split at hx
  · cases hx
  split at hx
  · cases hx
  · cases hx
    exact ⟨hf, areMadeOf_iff.2 h⟩

theorem collection? {op : CollectionOp} {slot : Option Nat} {body : Option Expr} (h : e.MadeOf Q)
    (hbody : ∀ b ∈ body, b.MadeOf Q) (hx : Expr.collection? op e slot body = .ok x) : x.MadeOf Q := by
  unfold Expr.collection? at hx
  split at hx
  · cases hx
  split at hx
  · split at hx
    · cases hx
      exact ⟨h, hbody _ rfl⟩
    · cases hx
  · split at hx
    · cases hx
    · cases hx
      exact h

variable (hQ : Value.Inherited Q)

include hQ

theorem ofValue {v : Value} (h : v.isPlain = true) : (Expr.ofValue v).MadeOf Q := hQ.plain h

theorem null : Expr.null.MadeOf Q := hQ.plain rfl

theorem converted (h : e.MadeOf Q) (t : ValueType) : (e.converted t).MadeOf Q := by
  unfold Expr.converted
  split
  · exact h
  split
  · exact hQ.plain rfl
  · exact h

theorem enumConstant {d : EnumType} {ignoreCase : Bool} (hx : e.enumConstant d t ignoreCase = .ok x) :
    x.MadeOf Q := by
  unfold Expr.enumConstant at hx
  split at hx
  · cases hx
  split at hx
  · cases hx
  · split at hx
    · cases hx
      exact converted hQ (ofValue hQ rfl) t
    · cases hx
  · cases hx
    exact converted hQ (null hQ) _
  · cases hx

theorem convertTo (h : e.MadeOf Q) (hx : e.convertTo t = .ok (some x)) : x.MadeOf Q := by
  unfold Expr.convertTo at hx
  split at hx
  · cases hx
    exact h
  split at hx
  · split at hx
    · cases hx
      exact converted hQ h t
    · cases hx
  split at hx
  · cases hx
    exact converted hQ h t
  split at hx
  · obtain ⟨y, hy, heq⟩ := map_eq_ok.1 hx
    cases heq
    exact enumConstant hQ hy
  · split at hx
    · cases hx
      exact converted hQ h t
    · cases hx

theorem implicit (hl : left.MadeOf Q) (hr : right.MadeOf Q) :
    (Pairing.implicit left right).left.MadeOf Q ∧ (Pairing.implicit left right).right.MadeOf Q := by
  unfold Pairing.implicit
  split
  · exact ⟨hl, hr⟩
  split
  · exact ⟨converted hQ hl _, converted hQ hr _⟩
  · exact ⟨hl, hr⟩

theorem numberAsEnum? (h : e.MadeOf Q) (hx : Pairing.numberAsEnum? e t = some x) : x.MadeOf Q := by
  unfold Pairing.numberAsEnum? at hx
  split at hx
  · split at hx
    · cases hx
      exact converted hQ h _
    · cases hx
  · cases hx

theorem enumNumber (hl : left.MadeOf Q) (hr : right.MadeOf Q) :
    (Pairing.enumNumber left right).left.MadeOf Q ∧ (Pairing.enumNumber left right).right.MadeOf Q := by
  unfold Pairing.enumNumber
  split
  · exact ⟨hl, hr⟩
  split
  · split
    · rename_i hx
      exact implicit hQ hl (numberAsEnum? hQ hr hx)
    · exact ⟨hl, hr⟩
  · split
    · rename_i hx
      exact implicit hQ (numberAsEnum? hQ hl hx) hr
    · exact ⟨hl, hr⟩
  · exact ⟨hl, hr⟩

theorem enumString {ignoreCase : Bool} {pair : Pairing} (hl : left.MadeOf Q) (hr : right.MadeOf Q)
    (h : Pairing.enumString ignoreCase left right = .ok pair) :
    pair.left.MadeOf Q ∧ pair.right.MadeOf Q := by
  unfold Pairing.enumString at h
  split at h
  · cases h
    exact ⟨hl, hr⟩
  split at h
  · split at h
    · obtain ⟨y, hy, rfl⟩ := map_eq_ok.1 h
      exact implicit hQ hl (enumConstant hQ hy)
    · cases h
      exact ⟨hl, hr⟩
  · split at h
    · obtain ⟨y, hy, rfl⟩ := map_eq_ok.1 h
      exact implicit hQ (enumConstant hQ hy) hr
    · cases h
      exact ⟨hl, hr⟩
  · cases h
    exact ⟨hl, hr⟩

theorem toBoolean? (h : e.MadeOf Q) (hx : e.toBoolean? = some x) : x.MadeOf Q := by
  unfold Expr.toBoolean? at hx
  split at hx
  · cases hx
    exact h
  dsimp only at hx
  split at hx
  · have htrue : (Expr.ofValue (.bool true)).MadeOf Q := ofValue hQ rfl
    have hpair := implicit hQ h htrue
    exact hpair.1.binary? hpair.2 (toOption_eq_some.1 hx)
  · cases hx

end MadeOf

end Expr

/-! ## Texts -/

/-- A rule makes of such expressions, and of its own text, expressions whose constants have a property and
whose functions uphold it. -/
def RuleKind.Upholds (Q : Value → Prop) : RuleKind → Prop
  | .operand build => ∀ (text : String) (scope : List Parameter) (e : Expr),
      build text scope = .ok e → e.MadeOf Q
  | .operator _ _ build => ∀ (text : String) (args : List Expr) (e : Expr),
      (∀ a ∈ args, a.MadeOf Q) → build text args = .ok e → e.MadeOf Q
  | .functionCall overloads => ∀ o ∈ overloads, ∀ (args : List Expr) (e : Expr),
      (∀ a ∈ args, a.MadeOf Q) → o.build args = .ok e → e.MadeOf Q
  | .collectionBracket build => ∀ (text : String) (source : Expr) (body : CollectionBody) (e : Expr),
      source.MadeOf Q → (∀ b ∈ body.body, b.MadeOf Q) → build text source body = .ok e → e.MadeOf Q
  | _ => True

variable {Q : Value → Prop}

theorem Converted.madeOf (hQ : Value.Inherited Q) {exprs args : List Expr} {types : List ValueType}
    (h : Converted exprs types args) (hexprs : ∀ e ∈ exprs, e.MadeOf Q) : ∀ a ∈ args, a.MadeOf Q := by
  induction h with
  | nil => exact hexprs
  | cons head _ ih =>
    obtain ⟨he, hexprs⟩ := List.forall_mem_cons.1 hexprs
    exact List.forall_mem_cons.2 ⟨Expr.MadeOf.convertTo hQ he head, ih hexprs⟩

/-- Every argument stands at a position of one of the two sides. -/
theorem mem_atSide {α : Type} {positions : List Side} {args : List α} (h : args.length = positions.length)
    {a : α} (ha : a ∈ args) : a ∈ atSide .left positions args ∨ a ∈ atSide .right positions args := by
  obtain ⟨i, hi, rfl⟩ := List.mem_iff_getElem.1 ha
  have hzip : (positions[i], args[i]) ∈ positions.zip args :=
    List.mem_iff_getElem.2 ⟨i, by rw [List.length_zip]; omega, List.getElem_zip⟩
  have hside (side : Side) (h : positions[i] = side) : args[i] ∈ atSide side positions args :=
    List.mem_map.2 ⟨_, List.mem_filter.2 ⟨hzip, decide_eq_true h⟩, rfl⟩
  cases h : positions[i] with
  | left => exact .inl (hside .left h)
  | right => exact .inr (hside .right h)

/-- What a derivation denotes is made as the rules of its tokens make it. -/
theorem Denotes.madeOf (hQ : Value.Inherited Q) {g : Grammar}
    (hkinds : ∀ t : Token, (g.kind t.rule).Upholds Q) {d : Derivation} {e : Expr} (h : Denotes g d e) :
    e.MadeOf Q := by
  induction hn : sizeOf d using Nat.strongRecOn generalizing d e with
  | ind n ih =>
  have hforall {ds : List Derivation} {es : List Expr} (hds : sizeOf ds < n)
      (h : List.Forall₂ (Denotes g) ds es) : ∀ e ∈ es, e.MadeOf Q := by
    intro e he
    obtain ⟨d, hd, hde⟩ := (exists_of_forall₂ h).2 e he
    exact ih (sizeOf d) ((List.sizeOf_lt_of_mem hd).trans hds) hde rfl
  subst hn
  cases h with
  | @token t build scope expr kind built =>
    have hkind := hkinds t
    rw [kind] at hkind
    exact hkind _ _ _ built
  | @operation op left right positions precedence build args expr kind length atLeft atRight built =>
    have hkind := hkinds op
    rw [kind] at hkind
    refine hkind _ _ _ (fun a ha => ?_) built
    rcases mem_atSide length ha with ha | ha
    · exact hforall (by simp only [Derivation.operation.sizeOf_spec]; omega) atLeft a ha
    · exact hforall (by simp only [Derivation.operation.sizeOf_spec]; omega) atRight a ha
  | @bracket opening close inner expr contents =>
    exact ih (sizeOf inner) (by simp only [Derivation.bracket.sizeOf_spec]; omega) contents rfl
  | @call opening close delimiters args overloads o exprs passed expr kind mem contents passes built =>
    have hkind := hkinds opening
    rw [kind] at hkind
    have hexprs := hforall (by simp only [Derivation.call.sizeOf_spec]; omega) contents
    refine hkind o mem _ _ ?_ built
    cases passes with
    | converted _ converted => exact converted.madeOf hQ hexprs
    | variadic _ => exact hexprs
  | @collection opening close accessor source body build items parameter predicate expr kind before contents
      built =>
    have hkind := hkinds opening
    rw [kind] at hkind
    refine hkind _ _ _ _ ?_ (fun b hb => ?_) built
    · exact ih (sizeOf source) (by simp only [Derivation.collection.sizeOf_spec]; omega) before rfl
    · obtain rfl := Option.mem_def.1 hb
      cases contents with
      | @some d _ hd =>
        exact ih (sizeOf d) (by simp only [Derivation.collection.sizeOf_spec, Option.some.sizeOf_spec]; omega)
          hd rfl

/-- What a language builds of a text is made as its rules make it. -/
theorem Language.madeOf_of_parse (hQ : Value.Inherited Q) {rules : List Rule} {l : Language}
    (made : Language.make? rules = .ok l) (h : ∀ r ∈ rules, r.kind.Upholds Q) {text : String}
    {parameters : List Parameter} {e : Expr} (hparse : l.parse text parameters = .ok e) : e.MadeOf Q := by
  obtain ⟨x, hx, rfl⟩ := Trace.exists_of_parse hparse
  obtain ⟨s, hs, hf⟩ := Option.bind_eq_some_iff.1 hx
  have hconserves := Trace.conserves_finish (Trace.Conserves.applyAll hs) hf
  exact (hconserves.denotes x List.mem_cons_self).madeOf hQ (forall_kind_of_make? made trivial h)

end Parlance
