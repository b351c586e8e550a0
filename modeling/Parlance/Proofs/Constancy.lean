import Parlance.Proofs.Environment
import Parlance.Proofs.TruthValues

/-!
# Closed expressions

An expression that is closed reads no parameter and binds no element, at any depth. Its evaluation comes to
one result from every environment, leaves the environment alone, and lacks no parameter
(`Expr.steady_of_isClosed`). This is what allows a text to be taken as a constant of an enum before there
are any arguments: `EnumType.Folded` says what the text then denotes, and it denotes that whenever it is
evaluated (`closed_expressions_constant`).
-/

namespace Parlance

/-! ## Results that lack no parameter -/

/-- Whether a parameter lacks. -/
def EvalError.isUnbound (e : EvalError) : Bool := e matches .unboundParameter _

/-- The result is not the lack of a parameter. -/
def Bound {α : Type} (r : Except EvalError α) : Prop := ∀ e, r = .error e → e.isUnbound = false

namespace Bound

variable {α β : Type} {r : Except EvalError α}

theorem ok (a : α) : Bound (.ok a) := fun _ h => nomatch h

theorem of_operational (h : Operational r) : Bound r := by
  intro e he
  have hoperational := h e he
  cases e <;> first | rfl | cases hoperational

theorem bind {f : α → Except EvalError β} (hr : Bound r) (hf : ∀ a, Bound (f a)) : Bound (r >>= f) := by
  cases r with
  | error e =>
    intro e' he
    cases he
    exact hr e rfl
  | ok a => exact hf a

theorem failure (f : Function) (r : Except HostFailure α) : Bound (r.mapError f.failure) := by
  intro e he
  cases r with
  | error failure =>
    cases he
    cases failure <;> rfl
  | ok a => cases he

end Bound

/-! ## Steady computations -/

namespace Eval

variable {α β : Type}

/-- From every environment the computation comes to the same result, which lacks no parameter, and it leaves
the environment as it was. -/
def Steady (x : Eval α) : Prop := ∃ r, Bound r ∧ ∀ env, Means env x r

namespace Steady

theorem pure (a : α) : Steady (Pure.pure a) := ⟨_, .ok a, fun _ => .pure a⟩

theorem ofExcept {r : Except EvalError α} (h : Bound r) : Steady (Eval.ofExcept r) :=
  ⟨r, h, fun _ => .ofExcept r⟩

theorem bind {x : Eval α} {f : α → Eval β} (hx : Steady x) (hf : ∀ a, Steady (f a)) :
    Steady (x >>= f) := by
  obtain ⟨r, hr, hx⟩ := hx
  choose k hk hf using hf
  exact ⟨r >>= k, hr.bind hk, fun env => (hx env).bind fun a => hf a env⟩

end Steady

end Eval

namespace Expr

mutual

/-- No constructor is judged closed too eagerly. -/
theorem steady_of_isClosed : ∀ {e : Expr}, e.isClosed = true → e.evaluate.Steady
  | .constant v t, _ => by
    rw [evaluate]
    exact .pure v
  | .field target index name t, h => by
    rw [isClosed] at h
    rw [evaluate]
    exact (steady_of_isClosed h).bind fun v => .ofExcept (.of_operational (v.operational_fieldAt index name))
  | .convert operand t, h => by
    rw [isClosed] at h
    rw [evaluate]
    exact (steady_of_isClosed h).bind fun v => .ofExcept (.of_operational (v.operational_convert t))
  | .unary op operand t, h => by
    rw [isClosed] at h
    rw [evaluate]
    exact (steady_of_isClosed h).bind fun v => .ofExcept (.of_operational (v.operational_unary op))
  | .binary op left right t, h => by
    rw [isClosed, Bool.and_eq_true_iff] at h
    rw [evaluate]
    refine (steady_of_isClosed h.1).bind fun a => ?_
    split
    · refine (Eval.Steady.ofExcept (.of_operational a.operational_truth)).bind fun decided => ?_
      split
      · exact .pure _
      · refine (steady_of_isClosed h.2).bind fun b => ?_
        exact (Eval.Steady.ofExcept (.of_operational b.operational_truth)).bind fun _ => .pure _
    · exact (steady_of_isClosed h.2).bind fun b => .ofExcept (.of_operational (a.operational_binary b op))
  | .call f args, h => by
    rw [isClosed] at h
    rw [evaluate]
    exact (steady_of_areClosed h).bind fun vs => .ofExcept (.failure f _)
  | .list items, h => by
    rw [isClosed] at h
    rw [evaluate]
    exact (steady_of_areClosed h).bind fun vs => .pure _

theorem steady_of_areClosed : ∀ {es : List Expr}, areClosed es = true → (evaluateItems es).Steady
  | [], _ => by
    rw [evaluateItems]
    exact .pure _
  | e :: es, h => by
    rw [areClosed, Bool.and_eq_true_iff] at h
    rw [evaluateItems]
    exact (steady_of_isClosed h.1).bind fun v => (steady_of_areClosed h.2).bind fun vs => .pure _

end

/-- A closed expression runs in every environment as it does in the empty one. -/
theorem run_of_isClosed {e : Expr} (h : e.isClosed = true) (env : List Value) :
    e.evaluate.run env = (e.value [], env) := by
  obtain ⟨r, -, hmeans⟩ := steady_of_isClosed h
  have hvalue : e.value [] = r := congrArg Prod.fst (hmeans [])
  rw [hvalue]
  exact hmeans env

theorem value_of_isClosed {e : Expr} (h : e.isClosed = true) (env : List Value) : e.value env = e.value [] := by
  rw [value, run_of_isClosed h]

theorem bound_of_isClosed {e : Expr} (h : e.isClosed = true) (env : List Value) : Bound (e.value env) := by
  obtain ⟨r, hr, hmeans⟩ := steady_of_isClosed h
  rwa [value, show e.evaluate.run env = _ from hmeans env]

end Expr

/-! ## Constants of enums -/

namespace EnumType

/-- What a value denotes as a value of an enum: a text that is one of its symbols or numbers denotes the
member, and null denotes null. -/
def denoted? (d : EnumType) (ignoreCase : Bool) : Value → Option Value
  | .string text => (d.valueOf? ignoreCase text).map (.enum d)
  | .null => some .null
  | _ => none

/-- What becomes of an expression that is taken as a constant of an enum, by what it evaluates to. -/
inductive Folded (d : EnumType) (ignoreCase : Bool) :
    Except EvalError Value → Except ConversionError Expr → Prop
  | failed (e : EvalError) : Folded d ignoreCase (.error e) (.error (.evaluation e))
  | refused {v : Value} (nothing : d.denoted? ignoreCase v = none) :
      Folded d ignoreCase (.ok v) (.error (.enumParse (v.toText?.getD v.print) d.name))
  | constant {v w : Value} {x : Expr} (denoted : d.denoted? ignoreCase v = some w)
      (run : ∀ env, x.evaluate.run env = (.ok w, env)) : Folded d ignoreCase (.ok v) (.ok x)

end EnumType

namespace Expr

variable {e : Expr} {d : EnumType} {t : ValueType}

theorem run_enumMember (hd : t.underlying = .enum d) (member : Int64) (env : List Value) :
    ((ofValue (.enum d member)).converted t).evaluate.run env = (.ok (.enum d member), env) := by
  have hvalues : ∀ v, (ofValue (.enum d member)).value env = .ok v → v.Inhabits t := by
    intro v hv
    obtain rfl : v = .enum d member := (Except.ok.inj hv).symm
    exact (Value.inhabits_iff_of_isScalar rfl).2 hd
  rw [run_converted hvalues]
  rfl

theorem folded_enumConstant (hd : t.underlying = .enum d) (ignoreCase : Bool) (h : e.isClosed = true) :
    d.Folded ignoreCase (e.value []) (e.enumConstant d t ignoreCase) := by
  unfold enumConstant
  rw [h, if_neg (by decide)]
  generalize e.value [] = r
  split
  · exact .failed _
  · rename_i text
    cases hmember : d.valueOf? ignoreCase text with
    | some member =>
      have hdenoted : d.denoted? ignoreCase (.string text) = some (.enum d member) := by
        rw [EnumType.denoted?, hmember]
        rfl
      exact .constant hdenoted (run_enumMember hd member)
    | none =>
      have hnothing : d.denoted? ignoreCase (.string text) = none := by
        rw [EnumType.denoted?, hmember]
        rfl
      exact .refused hnothing
  · rw [null_converted_orNull hd]
    exact .constant rfl fun _ => by rw [evaluate]; rfl
  · rename_i other hstring hnull
    have htext : other.toText? = none := by cases other <;> first | rfl | exact absurd rfl (hstring _)
    have hnothing : d.denoted? ignoreCase other = none := by
      cases other <;> first | rfl | exact absurd rfl (hstring _) | exact absurd rfl hnull
    have hrefused := EnumType.Folded.refused hnothing
    rwa [htext] at hrefused

end Expr

/-- A closed expression runs in every environment as it does in the empty one: to the same value or the same
failure, which is never the lack of a parameter, and with the environment left alone. What it becomes as a
constant of an enum, before there is any environment, is what its value denotes in each. -/
theorem closed_expressions_constant (e : Expr) (h : e.isClosed = true) :
    (∀ env, e.evaluate.run env = (e.value [], env)) ∧
    (∀ env slot, e.value env ≠ .error (.unboundParameter slot)) ∧
    ∀ (d : EnumType) (t : ValueType) (ignoreCase : Bool) (env : List Value), t.underlying = .enum d →
      d.Folded ignoreCase (e.value env) (e.enumConstant d t ignoreCase) := by
  refine ⟨Expr.run_of_isClosed h, fun env slot hlacks => ?_, fun d t ignoreCase env hd => ?_⟩
  · cases Expr.bound_of_isClosed h env _ hlacks
  · rw [Expr.value_of_isClosed h]
    exact Expr.folded_enumConstant hd ignoreCase h

/-- Joins texts. -/
def joinTexts : Function where
  name := "join"
  parameters := [.string, .string]
  returns := .string
  body values := .ok (.string (String.join (values.filterMap Value.toText?)))

/-- A text that a host function joins from two. -/
def joinedRed : Expr := .call joinTexts [.ofValue (.string "R"), .ofValue (.string "ed")]

/-- Two colours. -/
def colours : EnumType := ⟨"Colour", .int, [("Red", 1), ("Green", 2)]⟩

/-- The text is joined while there is no row yet, and it is the same colour for each. -/
theorem closed_expressions_constant_red :
    joinedRed.isClosed = true ∧
      joinedRed.evaluate.run [.bool true] = (.ok (.string "Red"), [.bool true]) ∧
      ∃ x, joinedRed.enumConstant colours (.enum colours) false = .ok x ∧
        x.evaluate.run [.bool true] = (.ok (.enum colours 1), [.bool true]) := by
  have hclosed : joinedRed.isClosed = true := rfl
  obtain ⟨hrun, -, hfolded⟩ := closed_expressions_constant joinedRed hclosed
  have hvalue : joinedRed.value [] = .ok (.string "Red") := by rfl
  refine ⟨hclosed, (hrun _).trans (by rw [hvalue]), ?_⟩
  have hred := hfolded colours (.enum colours) false [] rfl
  rw [hvalue] at hred
  have hdenoted : colours.denoted? false (.string "Red") = some (.enum colours 1) := by rfl
  generalize joinedRed.enumConstant colours (.enum colours) false = c at hred
  cases hred with
  | refused nothing =>
    rw [hdenoted] at nothing
    cases nothing
  | constant denoted run =>
    obtain rfl := Option.some.inj (hdenoted.symm.trans denoted)
    exact ⟨_, rfl, run _⟩

end Parlance
