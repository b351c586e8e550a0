import Parlance.Proofs.Step

/-!
# Which overload is called

The overloads that take the arguments of a call are tried in an order: first those with as many
parameters as there are arguments, then those that take any number. `Resolved` says what the call comes
to by this order, which is that of the first overload whose parameters all arguments convert to. This is
so except where a constant stands in the way: an argument that a conversion refuses for an earlier
overload ends the search, and what comes after is not tried (`calls_resolved`).
-/

namespace Parlance

/-! ## Arguments -/

/-- What is wrong with an argument that a conversion refuses. -/
def ConversionError.fault : ConversionError → Fault
  | .enumParse value enumName => .enumParse value enumName
  | error => .operationInvalid (.conversion error)

/-- What is wrong with an argument that does not convert to a type. -/
def Expr.misfit (e : Expr) (type : ValueType) : Fault :=
  match e.convertTo type with
  | .error error => error.fault
  | .ok _ => .argumentType type e.type

/-- The first of some arguments that does not convert to its declared type. -/
inductive Misfit (x : Operand) (type : ValueType) : List Operand → List ValueType → Prop
  | here {operands : List Operand} {types : List ValueType}
      (fails : ∀ arg, x.expr.convertTo type ≠ .ok (some arg)) :
      Misfit x type (x :: operands) (type :: types)
  | later {y : Operand} {u : ValueType} {arg : Expr} {operands : List Operand}
      {types : List ValueType} (converts : y.expr.convertTo u = .ok (some arg))
      (tail : Misfit x type operands types) : Misfit x type (y :: operands) (u :: types)

variable {operands contents : List Operand} {types : List ValueType} {x : Operand} {type : ValueType}

theorem Misfit.fails (h : Misfit x type operands types) (arg : Expr) :
    x.expr.convertTo type ≠ .ok (some arg) := by
  induction h with
  | here fails => exact fails arg
  | later _ _ ih => exact ih

theorem Misfit.mem (h : Misfit x type operands types) : x ∈ operands := by
  induction h with
  | here => exact List.mem_cons_self
  | later _ _ ih => exact List.mem_cons_of_mem _ ih

theorem convertArgs_of_converted {exprs args : List Expr} (h : Converted exprs types args)
    (hexprs : operands.map Operand.expr = exprs) : convertArgs operands types = .ok (.ok args) := by
  induction h generalizing operands with
  | nil =>
    obtain rfl := List.map_eq_nil_iff.1 hexprs
    rfl
  | cons head _ ih =>
    obtain ⟨y, ys, rfl, rfl, hys⟩ := List.map_eq_cons_iff.1 hexprs
    simp only [convertArgs, head, ih hys]
    rfl

/-- The first argument that does not convert decides: if its conversion is refused the call fails, else
the arguments are mistyped. -/
theorem convertArgs_of_misfit (h : Misfit x type operands types) :
    convertArgs operands types =
      match x.expr.convertTo type with
      | .ok _ => .ok (.error ⟨x, type⟩)
      | .error error => x.extent.fail error.fault := by
  induction h with
  | here fails =>
    unfold convertArgs
    cases hx : x.expr.convertTo type with
    | error error => cases error <;> rfl
    | ok r =>
      cases r with
      | none => rfl
      | some arg => exact absurd hx (fails arg)
  | later converts _ ih =>
    simp only [convertArgs, converts, ih]
    cases x.expr.convertTo type <;> rfl

theorem converted_or_misfit (h : operands.length = types.length) :
    (∃ args, Converted (operands.map Operand.expr) types args) ∨
      ∃ x type, Misfit x type operands types := by
  induction operands generalizing types with
  | nil =>
    obtain rfl := List.length_eq_zero_iff.1 h.symm
    exact .inl ⟨[], .nil⟩
  | cons y operands ih =>
    obtain ⟨u, types, rfl⟩ := List.exists_cons_of_length_eq_add_one h.symm
    by_cases hy : ∃ arg, y.expr.convertTo u = .ok (some arg)
    · obtain ⟨arg, hy⟩ := hy
      rcases ih (Nat.succ.inj h) with ⟨args, hargs⟩ | ⟨x, type, hx⟩
      · exact .inl ⟨arg :: args, .cons hy hargs⟩
      · exact .inr ⟨x, type, .later hy hx⟩
    · exact .inr ⟨y, u, .here (not_exists.1 hy)⟩

/-! ## Overloads -/

namespace Overload

/-- The overloads that take a number of arguments, in the order in which they are tried. -/
def ranked (overloads : List Overload) (count : Nat) : List Overload :=
  overloads.filter (·.arity? = some count) ++ overloads.filter (·.arity? = none)

theorem candidates_eq_ranked (overloads : List Overload) (count : Nat) :
    candidates overloads count = ranked overloads count := by
  simp only [candidates, ranked, List.filter_filter]
  congr 1 <;> refine List.filter_congr fun o _ => ?_
  · cases h : o.arity? <;> simp [accepts, h, beq_eq_decide]
  · cases h : o.arity? <;> simp [accepts, h]

/-- All arguments convert to the parameters. -/
def Fits (o : Overload) (contents : List Operand) : Prop :=
  ∃ args, o.Passes (contents.map Operand.expr) args

/-- An argument is the first that does not convert to its parameter. -/
def Misses (o : Overload) (contents : List Operand) (x : Operand) (type : ValueType) : Prop :=
  ∃ types, o.parameters = some types ∧ Misfit x type contents types

/-- The first argument that does not convert has no conversion to the type of its parameter. -/
def Skips (o : Overload) (contents : List Operand) : Prop :=
  ∃ x type, o.Misses contents x type ∧ x.expr.convertTo type = .ok none

/-- The first argument that does not convert is a constant of which the conversion makes no value. -/
def Refuses (o : Overload) (contents : List Operand) (x : Operand) (error : ConversionError) : Prop :=
  ∃ type, o.Misses contents x type ∧ x.expr.convertTo type = .error error

variable {o : Overload} {error : ConversionError}

theorem convert_of_passes {args : List Expr} (h : o.Passes (contents.map Operand.expr) args) :
    o.convert contents = .ok (.ok args) := by
  unfold convert
  cases h with
  | converted parameters converted =>
    rw [parameters]
    exact convertArgs_of_converted converted rfl
  | variadic parameters => rw [parameters]

theorem convert_of_misses (h : o.Misses contents x type) :
    o.convert contents =
      match x.expr.convertTo type with
      | .ok _ => .ok (.error ⟨x, type⟩)
      | .error error => x.extent.fail error.fault := by
  obtain ⟨types, parameters, hx⟩ := h
  unfold convert
  rw [parameters]
  exact convertArgs_of_misfit hx

theorem Misses.not_fits (h : o.Misses contents x type) : ¬ o.Fits contents := by
  rintro ⟨args, hargs⟩
  have hconvert := convert_of_misses h
  rw [convert_of_passes hargs] at hconvert
  cases hx : x.expr.convertTo type <;> rw [hx] at hconvert <;> cases hconvert

theorem Skips.not_fits (h : o.Skips contents) : ¬ o.Fits contents := by
  obtain ⟨x, type, hx, -⟩ := h
  exact hx.not_fits

theorem Refuses.not_fits (h : o.Refuses contents x error) : ¬ o.Fits contents := by
  obtain ⟨type, hx, -⟩ := h
  exact hx.not_fits

/-- An overload that takes the number of arguments fits, is skipped, or is refused an argument. -/
theorem fits_or_skips_or_refuses (h : o.accepts contents.length = true) :
    o.Fits contents ∨ o.Skips contents ∨ ∃ x error, o.Refuses contents x error := by
  cases hp : o.parameters with
  | none => exact .inl ⟨_, .variadic hp⟩
  | some types =>
    have hlength : types.length = contents.length := by simpa [accepts, arity?, hp] using h
    rcases converted_or_misfit hlength.symm with ⟨args, hargs⟩ | ⟨x, type, hx⟩
    · exact .inl ⟨args, .converted hp hargs⟩
    · refine .inr ?_
      cases hconvert : x.expr.convertTo type with
      | error error => exact .inr ⟨x, error, type, ⟨types, hp, hx⟩, hconvert⟩
      | ok r =>
        cases r with
        | none => exact .inl ⟨x, type, ⟨types, hp, hx⟩, hconvert⟩
        | some arg => exact absurd hconvert (hx.fails arg)

theorem accepts_of_mem_ranked {overloads : List Overload} {count : Nat}
    (h : o ∈ ranked overloads count) : o.accepts count = true :=
  (mem_candidates.1 (candidates_eq_ranked overloads count ▸ h)).2

end Overload

/-! ## Calls -/

/-- What the arguments of a call cover; the gap in its bracket if there are none. -/
def argsExtent (contents : List Operand) (opening close : Extent) : Extent :=
  if contents.isEmpty then opening.gap close else Operand.coverAll contents

/-- The outcome of a call by the order of the overloads. -/
inductive Resolved (overloads : List Overload) (contents : List Operand) (opening close : Extent) :
    Except ParseError Operand → Prop
  | call {before after : List Overload} {o : Overload} {exprs : List Expr}
      (order : Overload.ranked overloads contents.length = before ++ o :: after)
      (first : ∀ b ∈ before, ¬ b.Fits contents)
      (passes : o.Passes (contents.map Operand.expr) exprs) :
      Resolved overloads contents opening close
        (((opening.cover (argsExtent contents opening close)).checked (o.build exprs)).map fun expr =>
          ⟨expr, (opening.cover (argsExtent contents opening close)).cover close⟩)
  | count (none : Overload.ranked overloads contents.length = []) :
      Resolved overloads contents opening close
        ((argsExtent contents opening close).fail (.argumentCount
          ((overloads.head?.bind Overload.arity?).getD contents.length) contents.length))
  | argument {o : Overload} {x : Operand} {type : ValueType}
      (only : Overload.ranked overloads contents.length = [o]) (misses : o.Misses contents x type) :
      Resolved overloads contents opening close (x.extent.fail (x.expr.misfit type))
  | notFound (several : 2 ≤ (Overload.ranked overloads contents.length).length)
      (none : ∀ o ∈ Overload.ranked overloads contents.length, ¬ o.Fits contents) :
      Resolved overloads contents opening close
        ((argsExtent contents opening close).fail .overloadNotFound)

variable {overloads candidates before after : List Overload} {o : Overload} {opening close args : Extent}
  {error : ConversionError} {single : Bool}

/-- Overloads that are skipped leave the call to those after them. -/
theorem callFirst_append (hskips : ∀ b ∈ before, b.Skips contents)
    (hsingle : before = [] ∨ single = false) :
    callFirst contents opening args single (before ++ candidates) =
      callFirst contents opening args single candidates := by
  induction before with
  | nil => rfl
  | cons b before ih =>
    obtain rfl := hsingle.resolve_left (List.cons_ne_nil _ _)
    obtain ⟨⟨x, type, hx, hconvert⟩, hskips⟩ := List.forall_mem_cons.1 hskips
    have hb := Overload.convert_of_misses hx
    rw [hconvert] at hb
    simp only [List.cons_append, callFirst, hb]
    exact ih hskips (.inr rfl)

theorem callFirst_of_passes {exprs : List Expr} (h : o.Passes (contents.map Operand.expr) exprs) :
    callFirst contents opening args single (o :: candidates) =
      (opening.cover args).checked (o.build exprs) := by
  simp only [callFirst, Overload.convert_of_passes h]
  rfl

theorem callFirst_of_refuses (h : o.Refuses contents x error) :
    callFirst contents opening args single (o :: candidates) = x.extent.fail error.fault := by
  obtain ⟨type, hx, hconvert⟩ := h
  have ho := Overload.convert_of_misses hx
  rw [hconvert] at ho
  simp only [callFirst, ho]
  rfl

theorem callFirst_single (h : o.Misses contents x type) :
    callFirst contents opening args true [o] = x.extent.fail (x.expr.misfit type) := by
  have ho := Overload.convert_of_misses h
  simp only [callFirst, ho, Expr.misfit]
  cases x.expr.convertTo type <;> rfl

/-- Some overload fits or is refused an argument before all others, or all are skipped. -/
theorem exists_first (h : ∀ o ∈ candidates, o.accepts contents.length = true) :
    (∀ o ∈ candidates, o.Skips contents) ∨ ∃ before o after, candidates = before ++ o :: after ∧
      (∀ b ∈ before, b.Skips contents) ∧ (o.Fits contents ∨ ∃ x error, o.Refuses contents x error) := by
  induction candidates with
  | nil => exact .inl (by simp)
  | cons o candidates ih =>
    obtain ⟨ho, h⟩ := List.forall_mem_cons.1 h
    rcases Overload.fits_or_skips_or_refuses ho with hfits | hskips | hrefuses
    · exact .inr ⟨[], o, candidates, rfl, by simp, .inl hfits⟩
    · rcases ih h with hall | ⟨before, p, after, rfl, hbefore, hp⟩
      · exact .inl (List.forall_mem_cons.2 ⟨hskips, hall⟩)
      · exact .inr ⟨o :: before, p, after, rfl, List.forall_mem_cons.2 ⟨hskips, hbefore⟩, hp⟩
    · exact .inr ⟨[], o, candidates, rfl, by simp, .inr hrefuses⟩

theorem callFunction_of_nil (h : Overload.ranked overloads contents.length = []) :
    callFunction overloads contents opening close =
      (argsExtent contents opening close).fail (.argumentCount
        ((overloads.head?.bind Overload.arity?).getD contents.length) contents.length) := by
  unfold callFunction
  rw [Overload.candidates_eq_ranked, h]
  rfl

theorem callFunction_of_ne_nil (h : Overload.ranked overloads contents.length ≠ []) :
    callFunction overloads contents opening close =
      (callFirst contents opening (argsExtent contents opening close)
        ((Overload.ranked overloads contents.length).length == 1)
        (Overload.ranked overloads contents.length)).map fun expr =>
          ⟨expr, (opening.cover (argsExtent contents opening close)).cover close⟩ := by
  unfold callFunction argsExtent
  rw [Overload.candidates_eq_ranked]
  cases hranked : Overload.ranked overloads contents.length with
  | nil => exact absurd hranked h
  | cons o candidates =>
    dsimp only
    cases callFirst contents opening _ _ (o :: candidates) <;> rfl

/-- Where the first overload that is not skipped is refused an argument, nothing else is tried. -/
theorem callFunction_of_refuses
    (order : Overload.ranked overloads contents.length = before ++ o :: after)
    (hbefore : ∀ b ∈ before, b.Skips contents) (ho : o.Refuses contents x error) :
    callFunction overloads contents opening close = x.extent.fail error.fault := by
  have hsingle : before = [] ∨ ((before ++ o :: after).length == 1) = false := by
    cases before <;> simp
  rw [callFunction_of_ne_nil (by simp [order]), order, callFirst_append hbefore hsingle,
    callFirst_of_refuses ho]
  rfl

/-- The first overload that fits is called, if all before it are skipped. -/
theorem resolved_of_fits
    (order : Overload.ranked overloads contents.length = before ++ o :: after)
    (hbefore : ∀ b ∈ before, b.Skips contents) (ho : o.Fits contents) :
    Resolved overloads contents opening close (callFunction overloads contents opening close) := by
  obtain ⟨exprs, hexprs⟩ := ho
  have hsingle : before = [] ∨ ((before ++ o :: after).length == 1) = false := by
    cases before <;> simp
  rw [callFunction_of_ne_nil (by simp [order]), order, callFirst_append hbefore hsingle,
    callFirst_of_passes hexprs]
  exact .call order (fun b hb => (hbefore b hb).not_fits) hexprs

theorem resolved_of_single (order : Overload.ranked overloads contents.length = [o]) :
    Resolved overloads contents opening close (callFunction overloads contents opening close) := by
  have haccepts : o.accepts contents.length = true :=
    Overload.accepts_of_mem_ranked (order ▸ List.mem_singleton_self o)
  have hmisses {x : Operand} {type : ValueType} (h : o.Misses contents x type) :
      Resolved overloads contents opening close (callFunction overloads contents opening close) := by
    rw [callFunction_of_ne_nil (by simp [order]), order]
    change Resolved _ _ _ _ ((callFirst contents opening _ true [o]).map _)
    rw [callFirst_single h]
    exact .argument order h
  rcases Overload.fits_or_skips_or_refuses haccepts with hfits | ⟨x, type, hx, -⟩ | ⟨x, _, type, hx, -⟩
  · exact @resolved_of_fits contents overloads [] [] o opening close order (by simp) hfits
  · exact hmisses hx
  · exact hmisses hx

theorem resolved_of_skips (several : 2 ≤ (Overload.ranked overloads contents.length).length)
    (hskips : ∀ o ∈ Overload.ranked overloads contents.length, o.Skips contents) :
    Resolved overloads contents opening close (callFunction overloads contents opening close) := by
  have hne : Overload.ranked overloads contents.length ≠ [] := by
    rintro hnil
    simp [hnil] at several
  have hsingle : ((Overload.ranked overloads contents.length).length == 1) = false :=
    beq_eq_false_iff_ne.2 (by omega)
  have hfirst := @callFirst_append contents [] (Overload.ranked overloads contents.length) opening
    (argsExtent contents opening close) false hskips (.inr rfl)
  rw [List.append_nil] at hfirst
  rw [callFunction_of_ne_nil hne, hsingle, hfirst]
  exact .notFound several fun o ho => (hskips o ho).not_fits

/-- Outcomes of the order are not those of a refused argument, where several overloads are tried and the
arguments are behind the opening bracket. -/
theorem not_resolved_of_refuses (behind : opening.start < x.extent.start)
    (several : (Overload.ranked overloads contents.length).length ≠ 1)
    (hne : Overload.ranked overloads contents.length ≠ []) :
    ¬ Resolved overloads contents opening close (x.extent.fail error.fault) := by
  generalize hr : (x.extent.fail error.fault : Except ParseError Operand) = r
  intro h
  cases h with
  | @call before after o exprs =>
    cases hb : o.build exprs with
    | ok expr => rw [hb] at hr; cases hr
    | error refusal =>
      rw [hb] at hr
      injection hr with hr
      injection hr with hextent
      rw [hextent] at behind
      exact absurd behind (Nat.not_lt.2 (Nat.min_le_left _ _))
  | count none => exact hne none
  | argument only => exact several (by rw [only]; rfl)
  | notFound =>
    injection hr with hr
    injection hr with _ hfault
    cases error <;> cases hfault

/-- Of some overloads that do not fit and one that is refused an argument, the first that is not skipped
is refused an argument. -/
theorem exists_first_refuses
    (order : Overload.ranked overloads contents.length = before ++ o :: after)
    (hbefore : ∀ b ∈ before, ¬ b.Fits contents) (ho : o.Refuses contents x error) :
    ∃ before o after x error, Overload.ranked overloads contents.length = before ++ o :: after ∧
      (∀ b ∈ before, b.Skips contents) ∧ o.Refuses contents x error := by
  have haccepts : ∀ b ∈ before, b.accepts contents.length = true := fun b hb =>
    Overload.accepts_of_mem_ranked (order ▸ List.mem_append_left _ hb)
  rcases exists_first haccepts with hskips | ⟨first, p, rest, rfl, hfirst, hp⟩
  · exact ⟨before, o, after, x, error, order, hskips, ho⟩
  · obtain ⟨y, e, hy⟩ := hp.resolve_left (hbefore p (by simp))
    exact ⟨first, p, rest ++ o :: after, y, e, by simpa using order, hfirst, hy⟩

/-- A call is that of the first overload that fits, or it fails for want of one, exactly if no overload
before the first that fits is refused an argument, or there is only one overload to try. In a call where
an overload is refused an argument, all before it being skipped, that argument is at fault, whatever the
overloads after it are. -/
theorem calls_resolved (overloads : List Overload) (contents : List Operand) (opening close : Extent)
    (behind : ∀ x ∈ contents, opening.start < x.extent.start) :
    (Resolved overloads contents opening close (callFunction overloads contents opening close) ↔
      (Overload.ranked overloads contents.length).length = 1 ∨
        ∀ before o after, Overload.ranked overloads contents.length = before ++ o :: after →
          (∀ b ∈ before, ¬ b.Fits contents) → ∀ x error, ¬ o.Refuses contents x error) ∧
    ∀ before o after x error, Overload.ranked overloads contents.length = before ++ o :: after →
      (∀ b ∈ before, b.Skips contents) → o.Refuses contents x error →
        callFunction overloads contents opening close = x.extent.fail error.fault := by
  refine ⟨⟨fun h => ?_, fun h => ?_⟩,
    fun before o after x error order hbefore ho => callFunction_of_refuses order hbefore ho⟩
  · rw [or_iff_not_imp_left]
    intro several before o after order hbefore x error ho
    obtain ⟨before, o, after, x, error, order, hskips, ho⟩ := exists_first_refuses order hbefore ho
    rw [callFunction_of_refuses order hskips ho] at h
    obtain ⟨type, ⟨types, -, hx⟩, -⟩ := ho
    exact not_resolved_of_refuses (behind x hx.mem) several (by simp [order]) h
  · by_cases hsingle : (Overload.ranked overloads contents.length).length = 1
    · obtain ⟨o, order⟩ := List.length_eq_one_iff.1 hsingle
      exact resolved_of_single order
    have h := h.resolve_left hsingle
    cases hranked : Overload.ranked overloads contents.length with
    | nil => exact callFunction_of_nil hranked ▸ .count hranked
    | cons p rest =>
      have several : 2 ≤ (Overload.ranked overloads contents.length).length := by
        have := congrArg List.length hranked
        rw [List.length_cons] at this
        omega
      rcases exists_first fun o ho => Overload.accepts_of_mem_ranked ho with
        hskips | ⟨before, o, after, order, hbefore, ho⟩
      · exact resolved_of_skips several hskips
      · refine resolved_of_fits order hbefore (ho.resolve_right ?_)
        rintro ⟨x, error, ho⟩
        exact h before o after order (fun b hb => (hbefore b hb).not_fits) x error ho

/-! ## A text that is no colour -/

/-- An overload with one parameter. -/
def overloadFor (type : ValueType) : Overload := ⟨some [type], fun args => .ok (.list args)⟩

/-- The type of a few colours. -/
def colourType : ValueType := .enum ⟨"Colour", .int, [("Red", 1)]⟩

/-- A text in the brackets of a call. -/
def blueText : Operand := ⟨.ofValue (.string "blue"), ⟨2, 8⟩⟩

theorem refuses_blue :
    (overloadFor colourType).Refuses [blueText] blueText (.enumParse "blue" "Colour") := by
  have hconvert : blueText.expr.convertTo colourType = .error (.enumParse "blue" "Colour") := by rfl
  exact ⟨colourType, ⟨[colourType], rfl, .here (by simp [hconvert])⟩, hconvert⟩

theorem fits_blue : (overloadFor .string).Fits [blueText] :=
  ⟨[blueText.expr], .converted rfl (.cons rfl .nil)⟩

theorem skips_blue : (overloadFor .bool).Skips [blueText] :=
  ⟨blueText, .bool, ⟨[.bool], rfl, .here nofun⟩, rfl⟩

/-- The text is refused as a colour, and the overload that takes any text is not called. -/
theorem not_resolved_blue :
    callFunction [overloadFor colourType, overloadFor .string] [blueText] ⟨0, 2⟩ ⟨8, 9⟩ =
        .error ⟨⟨2, 8⟩, .enumParse "blue" "Colour"⟩ ∧
      ¬ Resolved [overloadFor colourType, overloadFor .string] [blueText] ⟨0, 2⟩ ⟨8, 9⟩
        (callFunction [overloadFor colourType, overloadFor .string] [blueText] ⟨0, 2⟩ ⟨8, 9⟩) := by
  have hcall := @callFunction_of_refuses [blueText] blueText
    [overloadFor colourType, overloadFor .string] [] [overloadFor .string] (overloadFor colourType)
    ⟨0, 2⟩ ⟨8, 9⟩ _ rfl (by simp) refuses_blue
  refine ⟨hcall, ?_⟩
  rw [hcall]
  exact not_resolved_of_refuses (by decide) (by decide) (by decide)

/-- Where the overload for texts comes first the text is taken, and where that for colours comes first
it is refused. -/
theorem calls_resolved_blue :
    (∀ x ∈ [blueText], 0 < x.extent.start) ∧
      Resolved [overloadFor .bool, overloadFor .string, overloadFor colourType] [blueText] ⟨0, 2⟩ ⟨8, 9⟩
        (callFunction [overloadFor .bool, overloadFor .string, overloadFor colourType] [blueText]
          ⟨0, 2⟩ ⟨8, 9⟩) ∧
      callFunction [overloadFor .bool, overloadFor colourType, overloadFor .string] [blueText]
        ⟨0, 2⟩ ⟨8, 9⟩ = .error ⟨⟨2, 8⟩, .enumParse "blue" "Colour"⟩ := by
  have behind : ∀ x ∈ [blueText], 0 < x.extent.start := by decide
  refine ⟨behind, (calls_resolved _ _ ⟨0, 2⟩ ⟨8, 9⟩ behind).1.2 (.inr ?_),
    (calls_resolved _ _ ⟨0, 2⟩ ⟨8, 9⟩ behind).2 [overloadFor .bool] (overloadFor colourType)
      [overloadFor .string] blueText _ rfl (List.forall_mem_singleton.2 skips_blue) refuses_blue⟩
  intro before o after order hbefore x error ho
  have order : [overloadFor .bool, overloadFor .string, overloadFor colourType] =
    before ++ o :: after := order
  cases before with
  | nil =>
    obtain ⟨rfl, -⟩ := List.cons.inj order
    obtain ⟨type, ⟨types, htypes, hx⟩, hconvert⟩ := ho
    cases htypes
    cases hx with
    | here => cases hconvert
    | later _ tail => cases tail
  | cons b before =>
    obtain ⟨-, order⟩ := List.cons.inj order
    cases before with
    | nil =>
      obtain ⟨rfl, -⟩ := List.cons.inj order
      exact ho.not_fits fits_blue
    | cons c before =>
      obtain ⟨rfl, -⟩ := List.cons.inj order
      exact hbefore _ (by simp) fits_blue

end Parlance
