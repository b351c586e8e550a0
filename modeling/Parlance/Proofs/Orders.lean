import Parlance.Value.Operation

/-!
# Orders both ways round

Doubles (`UnpackedFloat.compare_swap`), numbers of any kinds (`Number.compare?_swap`) and moments have the
opposite order the other way round, and none if there is none the other way round, as with NaN. Equality of
values is symmetric (`Value.equals_comm`).
-/

namespace Parlance

/-! ## Numbers -/

section

open Float.Model (UnpackedFloat)

theorem UnpackedFloat.compare_swap (x y : UnpackedFloat) : (x.compare y).map .swap = y.compare x := by
  have hsign (s t : UnpackedFloat.Sign) : (compare s t).swap = compare t s := by
    cases s <;> cases t <;> rfl
  have hfinite (e f : Int) (m n : Nat) :
      ((compare e f).then (compare m n)).swap = (compare f e).then (compare n m) := by
    rw [Ordering.swap_then, Int.compare_swap, Nat.compare_swap]
  cases x with
  | notANumber => cases y <;> rfl
  | infinity s =>
    cases y with
    | infinity t => exact congrArg some (hsign s t)
    | _ => cases s <;> rfl
  | zero s =>
    cases y with
    | infinity t => cases t <;> rfl
    | finite t => cases t <;> rfl
    | _ => rfl
  | finite s m e =>
    cases y with
    | notANumber => cases s <;> rfl
    | infinity t => cases s <;> cases t <;> rfl
    | zero t => cases s <;> rfl
    | finite t n f =>
      cases s with
      | negative =>
        cases t with
        | negative => exact congrArg (fun o => some (Ordering.swap o)) (hfinite e f m n)
        | positive => rfl
      | positive =>
        cases t with
        | negative => rfl
        | positive => exact congrArg some (hfinite e f m n)

end

theorem Decimal.compare_swap (d e : Decimal) : (d.compare e).swap = e.compare d :=
  Int.compare_swap _ _

namespace Number

section

variable {x y : Float}

theorem lt_iff_compare : x < y ↔ x.toModel.unpack.compare y.toModel.unpack = some .lt := by
  have hdecide : x < y ↔ x.toModel < y.toModel := decide_eq_true_iff
  exact hdecide.trans beq_iff_eq

theorem beq_iff_compare : (x == y) = true ↔ x.toModel.unpack.compare y.toModel.unpack = some .eq :=
  beq_iff_eq (a := x.toModel.unpack.compare y.toModel.unpack)

end

/-- The three tests of doubles ask one order of what they are made of. -/
theorem compareDoubles?_eq (x y : Float) :
    compareDoubles? x y = x.toModel.unpack.compare y.toModel.unpack := by
  simp only [compareDoubles?, lt_iff_compare, beq_iff_compare]
  rw [← UnpackedFloat.compare_swap x.toModel.unpack]
  rcases x.toModel.unpack.compare y.toModel.unpack with _ | _ | _ | _ <;> rfl

theorem compareDoubles?_swap (x y : Float) : (compareDoubles? x y).map .swap = compareDoubles? y x := by
  rw [compareDoubles?_eq, compareDoubles?_eq, UnpackedFloat.compare_swap]

/-- The order of any two numbers is the opposite one the other way round, and there is none if there is none
the other way round. -/
theorem compare?_swap (a b : Number) : (a.compare? b).map .swap = b.compare? a := by
  cases a with
  | integral k i hi =>
    cases b with
    | integral l j hj => exact congrArg some (Int.compare_swap i j)
    | decimal e =>
      simp only [compare?, Option.map_map]
      exact Option.map_congr fun d _ => d.compare_swap e
    | _ => exact compareDoubles?_swap _ _
  | decimal d =>
    cases b with
    | integral l j hj =>
      simp only [compare?, Option.map_map]
      exact Option.map_congr fun e _ => d.compare_swap e
    | decimal e => exact congrArg some (d.compare_swap e)
    | _ => exact compareDoubles?_swap _ _
  | _ => cases b <;> exact compareDoubles?_swap _ _

theorem beq_doubles_comm (x y : Float) : (x == y) = (y == x) := by
  rw [Bool.eq_iff_iff, beq_iff_compare, beq_iff_compare, ← UnpackedFloat.compare_swap x.toModel.unpack]
  rcases x.toModel.unpack.compare y.toModel.unpack with _ | _ | _ | _ <;> decide

theorem beq_singles_comm (x y : Float32) : (x == y) = (y == x) := by
  have hbeq (x y : Float32) : (x == y) = (x.toModel.unpack.compare y.toModel.unpack == some .eq) := rfl
  rw [hbeq, hbeq, ← UnpackedFloat.compare_swap x.toModel.unpack]
  rcases x.toModel.unpack.compare y.toModel.unpack with _ | _ | _ | _ <;> rfl

theorem same_comm (a b : Number) : a.same b = b.same a := by
  cases a with
  | integral k i =>
    cases b with
    | integral l j => simp only [same, eq_comm (a := k), Bool.beq_comm (a := i)]
    | _ => rfl
  | float x =>
    cases b with
    | float y => exact beq_singles_comm x y
    | _ => rfl
  | double x =>
    cases b with
    | double y => exact beq_doubles_comm x y
    | _ => rfl
  | decimal d =>
    cases b with
    | decimal e =>
      simp only [same, ← d.compare_swap e]
      cases d.compare e <;> rfl
    | _ => rfl

end Number

/-! ## Moments -/

namespace Calendar

theorem WallTime.compare_swap (a b : WallTime) : (a.compare b).swap = b.compare a := by
  simp only [WallTime.compare, Ordering.swap_then, Int.compare_swap, Nat.compare_swap]

theorem OffsetMoment.compare_swap (m n : OffsetMoment) : (m.compare n).swap = n.compare m :=
  m.universal.compare_swap n.universal.toWallTime

end Calendar

/-! ## Values -/

namespace Value

mutual

theorem same_comm : ∀ v w : Value, v.same w = w.same v
  | .null, w => by cases w <;> rfl
  | .bool a, w => by
    cases w with
    | bool b => exact Bool.beq_comm
    | _ => rfl
  | .number a, w => by
    cases w with
    | number b => exact a.same_comm b
    | _ => rfl
  | .string s, w => by
    cases w with
    | string t => exact Bool.beq_comm
    | _ => rfl
  | .dateTime m, w => by
    cases w with
    | dateTime n => exact decide_eq_decide.2 eq_comm
    | _ => rfl
  | .dateTimeOffset m, w => by
    cases w with
    | dateTimeOffset n => exact decide_eq_decide.2 eq_comm
    | _ => rfl
  | .guid g, w => by
    cases w with
    | guid h => exact decide_eq_decide.2 eq_comm
    | _ => rfl
  | .enum d a, w => by
    cases w with
    | enum e b => simp only [same, eq_comm (a := d), Bool.beq_comm (a := a)]
    | _ => rfl
  | .record t vs, w => by
    cases w with
    | record u ws => simp only [same, eq_comm (a := t), sameItems_comm vs ws]
    | _ => rfl
  | .list vs, w => by
    cases w with
    | list ws => simp only [same, sameItems_comm vs ws]
    | _ => rfl

theorem sameItems_comm : ∀ vs ws : List Value, sameItems vs ws = sameItems ws vs
  | [], [] => rfl
  | [], _ :: _ => rfl
  | _ :: _, [] => rfl
  | v :: vs, w :: ws => by rw [sameItems, sameItems, same_comm v w, sameItems_comm vs ws]

end

theorem equals_comm (v w : Value) : v.equals w = w.equals v := by
  cases v with
  | number a =>
    cases w with
    | number b =>
      simp only [equals, ← a.compare?_swap b]
      rcases a.compare? b with _ | _ | _ | _ <;> rfl
    | _ => exact same_comm _ _
  | enum d a =>
    cases w with
    | enum e b => exact Bool.beq_comm
    | _ => exact same_comm _ _
  | _ => cases w <;> exact same_comm _ _

end Value

end Parlance
