import Parlance.Proofs.Conversions

/-!
# Conversions in place

An operator converts its operands where they stand. `Coercion.run` is what a conversion then does: it
replaces operands of a `Couple` one by one, and what it has replaced stays replaced if it gives up or fails
afterwards. It comes to what `Pairing` says without a state (`Coercion.run_eq`), and it never gives up or
fails after it has replaced an operand. Where it succeeds both operands have one type (`operands_kept`).
-/

namespace Parlance

/-- The two operands of an operator. -/
structure Couple where
  left : Expr
  right : Expr

namespace Couple

/-- The operand on a side. -/
def on (c : Couple) : Side → Expr
  | .left => c.left
  | .right => c.right

/-- The operands with another one on a side. -/
def put (c : Couple) (e : Expr) : Side → Couple
  | .left => { c with left := e }
  | .right => { c with right := e }

/-- The enum of the one operand that has an enum type, that type, and the side of the other operand. -/
def enumPair? (c : Couple) : Option (EnumType × ValueType × Side) :=
  match c.left.type.enumType?, c.right.type.enumType? with
  | some descriptor, none => some (descriptor, c.left.type, .right)
  | none, some descriptor => some (descriptor, c.right.type, .left)
  | _, _ => none

end Couple

/-- What a pairing leaves of the operands, with whether they now have one type. -/
def Pairing.result (p : Pairing) : Bool × Couple := (p.done, ⟨p.left, p.right⟩)

/-! ## Steps -/

namespace InPlace

/-- Replaces the operand on a side by its conversion. -/
def coerce (side : Side) (type : ValueType) : StateM Couple Unit :=
  modify fun c => c.put ((c.on side).converted type) side

/-- Converts both operands to their common type, one after the other. -/
def implicit : StateM Couple Bool := do
  let c ← get
  if c.left.type = c.right.type then return true
  match c.left.type.common? c.right.type with
  | none => return false
  | some type =>
    coerce .left type
    coerce .right type
    return true

/-- Takes an integral operand as the enum of the other side, and then converts both. -/
def enumNumber : StateM Couple Bool := do
  let c ← get
  if c.left.type = c.right.type then return true
  match c.enumPair? with
  | none => return false
  | some (_, enumType, side) =>
    let numberType := (c.on side).type
    match numberType.numericKind? with
    | none => return false
    | some kind =>
      if kind.isEnumCompatible then
        coerce side (if numberType.isNullable then enumType.orNull else enumType)
        implicit
      else return false

/-- Takes a constant text as a member of the enum of the other side, and then converts both; fails where
the text is refused. -/
def enumString (ignoreCase : Bool) : StateM Couple (Except ConversionError Bool) := do
  let c ← get
  if c.left.type = c.right.type then return .ok true
  match c.enumPair? with
  | none => return .ok false
  | some (descriptor, enumType, side) =>
    if (c.on side).type.underlying = .string then
      match (c.on side).enumConstant descriptor enumType ignoreCase with
      | .error error => return .error error
      | .ok constant =>
        modify fun c => c.put constant side
        return .ok (← implicit)
    else return .ok false

/-- Makes an operand a truth value; the comparison with true is tried on a copy of it. -/
def toBoolean : StateM Expr Bool := do
  let e ← get
  if e.type = .bool then return true
  let (done, copy) := implicit.run ⟨e, .ofValue (.bool true)⟩
  if done then
    match Expr.binary? .equal copy.left copy.right with
    | .ok comparison =>
      set comparison
      return true
    | .error _ => return false
  else return false

theorem run_implicit (c : Couple) : implicit.run c = (Pairing.implicit c.left c.right).result := by
  unfold implicit Pairing.implicit
  simp only [StateT.run_bind, StateT.run_get, pure_bind]
  by_cases htype : c.left.type = c.right.type
  · rw [if_pos htype, if_pos htype]
    rfl
  rw [if_neg htype, if_neg htype]
  cases c.left.type.common? c.right.type <;> rfl

end InPlace

/-! ## Pairs by side -/

namespace Pairing

open Couple

theorem enumNumber_eq (c : Couple) : enumNumber c.left c.right =
    if c.left.type = c.right.type then ⟨true, c.left, c.right⟩
    else
      match c.enumPair? with
      | some (_, enumType, side) =>
        match numberAsEnum? (c.on side) enumType with
        | some x => implicit (c.put x side).left (c.put x side).right
        | none => ⟨false, c.left, c.right⟩
      | none => ⟨false, c.left, c.right⟩ := by
  unfold enumNumber enumSide? enumPair?
  cases c.left.type.enumType? <;> cases c.right.type.enumType? <;> rfl

theorem enumString_eq (ignoreCase : Bool) (c : Couple) : enumString ignoreCase c.left c.right =
    if c.left.type = c.right.type then .ok ⟨true, c.left, c.right⟩
    else
      match c.enumPair? with
      | some (descriptor, enumType, side) =>
        if (c.on side).type.underlying = .string then
          ((c.on side).enumConstant descriptor enumType ignoreCase).map fun x =>
            implicit (c.put x side).left (c.put x side).right
        else .ok ⟨false, c.left, c.right⟩
      | none => .ok ⟨false, c.left, c.right⟩ := by
  unfold enumString enumSide? enumPair?
  cases c.left.type.enumType? <;> cases c.right.type.enumType? <;> rfl

end Pairing

namespace InPlace

theorem run_enumNumber (c : Couple) :
    enumNumber.run c = (Pairing.enumNumber c.left c.right).result := by
  rw [Pairing.enumNumber_eq]
  unfold enumNumber
  simp only [StateT.run_bind, StateT.run_get, pure_bind]
  by_cases htype : c.left.type = c.right.type
  · rw [if_pos htype, if_pos htype]
    rfl
  rw [if_neg htype, if_neg htype]
  cases c.enumPair? with
  | none => rfl
  | some found =>
    obtain ⟨descriptor, enumType, side⟩ := found
    simp only [Pairing.numberAsEnum?]
    cases (c.on side).type.numericKind? with
    | none => rfl
    | some kind =>
      by_cases hkind : kind.isEnumCompatible = true
      · simp only [if_pos hkind]
        exact run_implicit _
      · simp only [if_neg hkind]
        rfl

theorem run_enumString (ignoreCase : Bool) (c : Couple) : (enumString ignoreCase).run c =
    match Pairing.enumString ignoreCase c.left c.right with
    | .ok p => (.ok p.done, p.result.2)
    | .error error => (.error error, c) := by
  rw [Pairing.enumString_eq]
  unfold enumString
  simp only [StateT.run_bind, StateT.run_get, pure_bind]
  by_cases htype : c.left.type = c.right.type
  · simp only [if_pos htype]
    rfl
  simp only [if_neg htype]
  cases c.enumPair? with
  | none => rfl
  | some found =>
    obtain ⟨descriptor, enumType, side⟩ := found
    by_cases hstring : (c.on side).type.underlying = .string
    · simp only [if_pos hstring]
      cases (c.on side).enumConstant descriptor enumType ignoreCase with
      | error error => rfl
      | ok x =>
        simp only [StateT.run_bind, StateT.run_modify, pure_bind, run_implicit, Except.map]
        rfl
    · simp only [if_neg hstring]
      rfl

theorem run_toBoolean (e : Expr) : toBoolean.run e =
    match e.toBoolean? with
    | some x => (true, x)
    | none => (false, e) := by
  unfold toBoolean Expr.toBoolean?
  simp only [StateT.run_bind, StateT.run_get, pure_bind]
  by_cases htype : e.type = .bool
  · simp only [if_pos htype]
    rfl
  simp only [if_neg htype, run_implicit, Pairing.result]
  by_cases hdone : (Pairing.implicit e (.ofValue (.bool true))).done = true
  · simp only [if_pos hdone]
    cases Expr.binary? .equal (Pairing.implicit e (.ofValue (.bool true))).left
      (Pairing.implicit e (.ofValue (.bool true))).right <;> rfl
  · simp only [if_neg hdone]
    rfl

end InPlace

/-! ## What is left of the operands -/

theorem ValueType.exists_common?_of_underlying_eq {a b : ValueType} (h : a.underlying = b.underlying) :
    ∃ c, a.common? b = some c := by
  unfold common?
  rw [if_pos h]
  split
  · exact ⟨_, rfl⟩
  split
  · exact ⟨_, rfl⟩
  split <;> exact ⟨_, rfl⟩

namespace Couple

variable {c : Couple} {descriptor : EnumType} {enumType : ValueType} {side : Side}

theorem underlying_of_enumPair? (h : c.enumPair? = some (descriptor, enumType, side)) :
    enumType.underlying = .enum descriptor := by
  unfold enumPair? at h
  split at h <;> cases h
  · rename_i hleft
    exact ValueType.enumType?_eq_some.1 hleft
  · rename_i hright
    exact ValueType.enumType?_eq_some.1 hright

/-- An operand that is taken as the enum of the other side differs from that by no more than a nullable
wrapper. -/
theorem underlying_put (h : c.enumPair? = some (descriptor, enumType, side)) {x : Expr}
    (hx : x.type = enumType ∨ x.type = enumType.orNull) :
    (c.put x side).left.type.underlying = (c.put x side).right.type.underlying := by
  have hu : x.type.underlying = enumType.underlying := by
    rcases hx with hx | hx <;> simp [hx]
  unfold enumPair? at h
  split at h <;> cases h
  · exact hu.symm
  · exact hu

end Couple

namespace Pairing

/-- The operands have one type if they were to be given one, and else they are those that there were. -/
structure Keeps (p : Pairing) (c : Couple) : Prop where
  types : p.done = true → p.left.type = p.right.type
  kept : p.done = false → p.left = c.left ∧ p.right = c.right

variable {c : Couple} {p : Pairing} {left right : Expr}

theorem keeps_self (h : c.left.type = c.right.type) : Keeps ⟨true, c.left, c.right⟩ c :=
  ⟨fun _ => h, nofun⟩

theorem keeps_refused (c : Couple) : Keeps ⟨false, c.left, c.right⟩ c :=
  ⟨nofun, fun _ => ⟨rfl, rfl⟩⟩

theorem keeps_implicit (c : Couple) : (implicit c.left c.right).Keeps c := by
  obtain ⟨t, -, heq⟩ | heq := implicit_cases c.left c.right
  · rw [heq]
    exact ⟨fun _ => by rw [Expr.type_converted, Expr.type_converted], nofun⟩
  · rw [heq]
    exact keeps_refused c

/-- Operands that differ by no more than a nullable wrapper have a common type, so that what has been
replaced before counts. -/
theorem keeps_of_underlying_eq {d : Couple} (h : d.left.type.underlying = d.right.type.underlying) :
    (implicit d.left d.right).Keeps c := by
  obtain ⟨t, ht⟩ := ValueType.exists_common?_of_underlying_eq h
  have hdone : (implicit d.left d.right).done = true := by rw [implicit_eq ht]
  exact ⟨(keeps_implicit d).types, fun hnot => absurd (hnot.symm.trans hdone) nofun⟩

theorem keeps_enumNumber (c : Couple) : (enumNumber c.left c.right).Keeps c := by
  rw [enumNumber_eq]
  split
  · rename_i htype
    exact keeps_self htype
  split
  · rename_i enumType side hpair
    split
    · rename_i x hx
      have hd := Couple.underlying_of_enumPair? hpair
      exact keeps_of_underlying_eq (Couple.underlying_put hpair (carries_numberAsEnum? hd hx).2.1)
    · exact keeps_refused c
  · exact keeps_refused c

theorem keeps_enumString {ignoreCase : Bool} (h : enumString ignoreCase c.left c.right = .ok p) :
    p.Keeps c := by
  rw [enumString_eq] at h
  split at h
  · rename_i htype
    cases h
    exact keeps_self htype
  split at h
  · rename_i descriptor enumType side hpair
    split at h
    · obtain ⟨x, hx, rfl⟩ := map_eq_ok.1 h
      have hd := Couple.underlying_of_enumPair? hpair
      exact keeps_of_underlying_eq (Couple.underlying_put hpair (Expr.value_enumConstant hd hx).1)
    · cases h
      exact keeps_refused c
  · cases h
    exact keeps_refused c

end Pairing

/-- Operands of one type are compared for equality, unless they are collections. -/
theorem Expr.exists_binary?_equality {op : BinaryOp} {left right : Expr} (hop : op.isEquality = true)
    (htype : left.type = right.type) :
    (∃ x, binary? op left right = .ok x) ↔ left.type.element? = none := by
  have harithmetic : op.isArithmetic = false := by cases op <;> first | rfl | cases hop
  have hordering : op.isOrdering = false := by cases op <;> first | rfl | cases hop
  simp only [binary?, binaryType?, if_pos htype, harithmetic, hordering, hop, ValueType.element?,
    Bool.false_eq_true, if_false, if_true]
  cases left.type.underlying <;> simp

/-! ## Coercions -/

/-- The ways to give two operands one type. -/
inductive Coercion where
  | implicit
  | enumNumber
  | enumString (ignoreCase : Bool)

namespace Coercion

/-- What is done to the operands, and whether it succeeds, gives up or fails. -/
def run : Coercion → Couple → Except ConversionError Bool × Couple
  | implicit, c => Prod.map .ok id (InPlace.implicit.run c)
  | enumNumber, c => Prod.map .ok id (InPlace.enumNumber.run c)
  | enumString ignoreCase, c => (InPlace.enumString ignoreCase).run c

/-- What becomes of the operands, unless it fails. -/
def pairing : Coercion → Couple → Except ConversionError Pairing
  | implicit, c => .ok (Pairing.implicit c.left c.right)
  | enumNumber, c => .ok (Pairing.enumNumber c.left c.right)
  | enumString ignoreCase, c => Pairing.enumString ignoreCase c.left c.right

theorem run_eq (k : Coercion) (c : Couple) : k.run c =
    match k.pairing c with
    | .ok p => (.ok p.done, p.result.2)
    | .error error => (.error error, c) := by
  cases k with
  | implicit => rw [run, InPlace.run_implicit]; rfl
  | enumNumber => rw [run, InPlace.run_enumNumber]; rfl
  | enumString ignoreCase => exact InPlace.run_enumString ignoreCase c

theorem keeps_pairing {k : Coercion} {c : Couple} {p : Pairing} (h : k.pairing c = .ok p) :
    p.Keeps c := by
  cases k with
  | implicit =>
    cases h
    exact Pairing.keeps_implicit c
  | enumNumber =>
    cases h
    exact Pairing.keeps_enumNumber c
  | enumString ignoreCase => exact Pairing.keeps_enumString h

end Coercion

/-- In place, coercions do what pairings say. One that gives up or fails leaves both operands as they were,
and one that succeeds gives them one type, so that they are compared for equality unless they are
collections. An operand that cannot be made a truth value stays as it was. -/
theorem operands_kept (k : Coercion) (c : Couple) (e : Expr) :
    (k.run c = match k.pairing c with
      | .ok p => (.ok p.done, p.result.2)
      | .error error => (.error error, c)) ∧
    ((k.run c).1 ≠ .ok true → (k.run c).2 = c) ∧
    ((k.run c).1 = .ok true → (k.run c).2.left.type = (k.run c).2.right.type ∧
      ∀ op : BinaryOp, op.isEquality = true →
        ((∃ x, Expr.binary? op (k.run c).2.left (k.run c).2.right = .ok x) ↔
          (k.run c).2.left.type.element? = none)) ∧
    (InPlace.toBoolean.run e = match e.toBoolean? with
      | some x => (true, x)
      | none => (false, e)) ∧
    ((InPlace.toBoolean.run e).1 = false → (InPlace.toBoolean.run e).2 = e) := by
  refine ⟨k.run_eq c, fun hrun => ?_, fun hrun => ?_, InPlace.run_toBoolean e, fun hrun => ?_⟩
  · rw [Coercion.run_eq] at hrun ⊢
    cases hp : k.pairing c with
    | error error => rfl
    | ok p =>
      rw [hp] at hrun
      have hdone : p.done = false := by simpa using hrun
      obtain ⟨hleft, hright⟩ := (Coercion.keeps_pairing hp).kept hdone
      simp only [Pairing.result, hleft, hright]
  · rw [Coercion.run_eq] at hrun ⊢
    cases hp : k.pairing c with
    | error error =>
      rw [hp] at hrun
      cases hrun
    | ok p =>
      rw [hp] at hrun
      have htype := (Coercion.keeps_pairing hp).types (Except.ok.inj hrun)
      exact ⟨htype, fun op hop => Expr.exists_binary?_equality hop htype⟩
  · rw [InPlace.run_toBoolean] at hrun ⊢
    cases hx : e.toBoolean? with
    | none => rfl
    | some x =>
      rw [hx] at hrun
      cases hrun

/-- Flags beside a number that may be null. -/
def flagsAndNumber : Couple := ⟨.parameter 1 none flagsType, flagsParameter⟩

/-- Flags beside a text that is none of their symbols. -/
def flagsAndText : Couple := ⟨.parameter 1 none flagsType, .ofValue (.string "None")⟩

/-- The number is taken as flags, the text is refused, and it is no truth value either. -/
theorem operands_kept_flags :
    (Coercion.enumNumber.run flagsAndNumber).1 = .ok true ∧
      (Coercion.enumNumber.run flagsAndNumber).2.left.type =
        (Coercion.enumNumber.run flagsAndNumber).2.right.type ∧
      ((Coercion.enumString true).run flagsAndText).1 = .error (.enumParse "None" "Flags") ∧
      ((Coercion.enumString true).run flagsAndText).2 = flagsAndText ∧
      (InPlace.toBoolean.run flagsAndText.right).1 = false ∧
      (InPlace.toBoolean.run flagsAndText.right).2 = flagsAndText.right := by
  have hnumber : (Coercion.enumNumber.run flagsAndNumber).1 = .ok true := rfl
  have htext : ((Coercion.enumString true).run flagsAndText).1 = .error (.enumParse "None" "Flags") := rfl
  have hboolean : (InPlace.toBoolean.run flagsAndText.right).1 = false := rfl
  exact ⟨hnumber, ((operands_kept .enumNumber flagsAndNumber .null).2.2.1 hnumber).1, htext,
    (operands_kept (.enumString true) flagsAndText .null).2.1 (by rw [htext]; nofun), hboolean,
    (operands_kept .implicit flagsAndText flagsAndText.right).2.2.2.2 hboolean⟩

end Parlance
