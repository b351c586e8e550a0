import Parlance.Proofs.Builders

/-!
# Visibility of elements

An element is visible from the accessor that names it to the close of its own bracket. In every state of
a parse the parameters behind those at the start belong to the brackets that wait with a named element,
one to each and in their order (`Numbered`). What refers to an element in the expression of a filter
stands in the predicate of the collection that the element is from (`Expr.Placed`), even where an operand
of a bracket has reached out of it.
-/

namespace Parlance

/-! ## Along a run -/

/-- The parameters of a state are those at the start and, behind them, one for each bracket over a
collection that has named its element, in the order in which the brackets wait. -/
structure Numbered (g : Grammar) (start : List Parameter) (s : ParseState) : Prop where
  kept : start <+: s.parameters
  slots : s.operators.reverse.filterMap (·.slot) =
    List.range' start.length (s.parameters.length - start.length)
  kinds : ∀ a ∈ s.owners, ∃ build, g.kind a.rule = .collectionBracket build

namespace Trace

variable {g : Grammar} {start : List Parameter} {s : Trace}

theorem InScope.numbered (h : InScope g start s.operators s.parameters) :
    Numbered g start s.state where
  kept := h.kept
  slots := by
    rw [state, ← List.map_reverse, List.filterMap_map]
    exact h.slots_eq
  kinds a ha := by
    rw [owners_state] at ha
    obtain ⟨b, hb, rfl⟩ := List.mem_map.1 ha
    obtain ⟨hb, hslot⟩ := List.mem_filter.1 hb
    exact h.kind_of_mem hb hslot

end Trace

/-! ## In expressions -/

namespace Expr

/-- An expression occurs in another one, inside the predicates over the collections of `path` that name
their elements, the outermost first. What stands in the source of a collection is not inside its
predicate. -/
inductive Occurs : List (Nat × Expr) → Expr → Expr → Prop
  | self {e : Expr} : Occurs [] e e
  | field {path : List (Nat × Expr)} {e target : Expr} {index : Nat} {name : String} {t : ValueType}
      (inner : Occurs path e target) : Occurs path e (.field target index name t)
  | convert {path : List (Nat × Expr)} {e operand : Expr} {t : ValueType}
      (inner : Occurs path e operand) : Occurs path e (.convert operand t)
  | unary {path : List (Nat × Expr)} {e operand : Expr} {op : UnaryOp} {t : ValueType}
      (inner : Occurs path e operand) : Occurs path e (.unary op operand t)
  | left {path : List (Nat × Expr)} {e left right : Expr} {op : BinaryOp} {t : ValueType}
      (inner : Occurs path e left) : Occurs path e (.binary op left right t)
  | right {path : List (Nat × Expr)} {e left right : Expr} {op : BinaryOp} {t : ValueType}
      (inner : Occurs path e right) : Occurs path e (.binary op left right t)
  | argument {path : List (Nat × Expr)} {e a : Expr} {f : Function} {args : List Expr} (mem : a ∈ args)
      (inner : Occurs path e a) : Occurs path e (.call f args)
  | item {path : List (Nat × Expr)} {e a : Expr} {items : List Expr} (mem : a ∈ items)
      (inner : Occurs path e a) : Occurs path e (.list items)
  | source {path : List (Nat × Expr)} {e source : Expr} {op : CollectionOp} {slot : Option Nat}
      {body : Option Expr} (inner : Occurs path e source) :
      Occurs path e (.collection op source slot body)
  | unnamed {path : List (Nat × Expr)} {e source body : Expr} {op : CollectionOp}
      (inner : Occurs path e body) : Occurs path e (.collection op source none (some body))
  | named {path : List (Nat × Expr)} {e source body : Expr} {op : CollectionOp} {slot : Nat}
      (inner : Occurs path e body) :
      Occurs ((slot, source) :: path) e (.collection op source (some slot) (some body))

variable {wf : Prop} {path : List (Nat × Expr)} {e tree : Expr} {record : ValueType}

/-- What occurs in a typed expression is typed in the scope with the elements around it, which are those
of the collections on the path and stand in their slots. -/
theorem Typed.of_occurs {Γ : List ValueType} (h : tree.Typed wf Γ) (ho : Occurs path e tree) :
    ∃ elements, path.map Prod.fst = List.range' Γ.length path.length ∧
      path.map (·.2.type.element?) = elements.map some ∧ e.Typed wf (Γ ++ elements) := by
  induction ho generalizing Γ with
  | self => exact ⟨[], rfl, rfl, by rwa [List.append_nil]⟩
  | field _ ih => cases h with | field target_typed => exact ih target_typed
  | convert _ ih => cases h with | convert operand_typed => exact ih operand_typed
  | unary _ ih => cases h with | unary operand_typed => exact ih operand_typed
  | left _ ih => cases h with | binary left_typed => exact ih left_typed
  | right _ ih => cases h with | binary _ right_typed => exact ih right_typed
  | argument mem _ ih => cases h with | call _ args_typed => exact ih (args_typed _ mem)
  | item mem _ ih => cases h with | list items_typed => exact ih (items_typed _ mem)
  | source _ ih =>
    cases h with
    | occupied source_typed => exact ih source_typed
    | quantified source_typed => exact ih source_typed
    | named source_typed => exact ih source_typed
  | unnamed _ ih => cases h with | quantified _ _ body_typed => exact ih body_typed
  | named _ ih =>
    cases h with
    | @named _ _ _ _ element source_typed element_eq body_typed =>
      obtain ⟨elements, hslots, hsources, htyped⟩ := ih body_typed
      refine ⟨element :: elements, ?_, ?_, ?_⟩
      · simp [hslots, List.range'_succ]
      · rw [List.map_cons, List.map_cons, hsources, element_eq]
      · rwa [List.append_cons]

/-- How an expression stands in the predicates around it, for a record in the first slot: these have the
slots behind that, the outermost the first of them. A parameter is the record, or the element of a
collection around it; a collection that names its element takes the next slot. -/
structure Placed (record : ValueType) (path : List (Nat × Expr)) (e : Expr) : Prop where
  slots : path.map Prod.fst = List.range' 1 path.length
  parameter : ∀ {slot : Nat} {name : Option String} {t : ValueType}, e = .parameter slot name t →
    slot = 0 ∧ t = record ∨ ∃ source, (slot, source) ∈ path ∧ source.type.element? = some t
  collection : ∀ {op : CollectionOp} {source : Expr} {slot : Nat} {body : Option Expr},
    e = .collection op source (some slot) body → slot = path.length + 1

theorem Typed.placed (h : tree.Typed wf [record]) (ho : Occurs path e tree) :
    Placed record path e := by
  obtain ⟨elements, hslots, hsources, htyped⟩ := h.of_occurs ho
  have hlength : path.length = elements.length := by simpa using congrArg List.length hsources
  refine ⟨hslots, ?_, ?_⟩
  · rintro slot name t rfl
    cases htyped with
    | parameter slot_eq =>
      cases slot with
      | zero => exact .inl ⟨rfl, (Option.some.inj slot_eq).symm⟩
      | succ k =>
        rw [List.cons_append, List.nil_append, List.getElem?_cons_succ] at slot_eq
        obtain ⟨hk, -⟩ := List.getElem?_eq_some_iff.1 slot_eq
        have hk : k < path.length := hlength ▸ hk
        have hslot := congrArg (·[k]?) hslots
        have hsource := congrArg (·[k]?) hsources
        simp only [List.getElem?_map, List.getElem?_eq_getElem hk, slot_eq, Option.map_some,
          Option.some.injEq] at hslot hsource
        rw [List.getElem?_range' hk, Option.some.injEq, List.length_singleton] at hslot
        refine .inr ⟨path[k].2, ?_, hsource⟩
        rw [show k + 1 = path[k].1 by omega]
        exact List.getElem_mem hk
  · rintro op source slot body rfl
    cases htyped with
    | occupied _ _ slot_eq => simpa [hlength, Nat.add_comm] using slot_eq slot rfl
    | named => simp [hlength]

end Expr

/-! ## Scopes -/

/-- The tokens of a filter lead to a state that finishes. For a given text this takes no evaluation. -/
theorem Filter.exists_of_parse {text : String} {record : RecordType} {f : Lambda}
    (h : Filter.parse text record = .ok f) :
    ∃ final e, (ParseState.start [⟨none, record.type⟩]).applyAll Filter.language.grammar
        (Filter.language.scanner.scan text).tokens = .ok final ∧
      final.finish Filter.language.grammar = .ok e := by
  obtain ⟨e, hparse, -⟩ := bind_eq_ok.1 h
  obtain ⟨final, hend, -, hfinish⟩ := Trace.parse_eq_ok.1 hparse
  exact ⟨final, e, hend, hfinish⟩

/-- In every state of a parse the parameters behind those at the start are numbered by the brackets that
wait, a token takes one away only with the bracket that has named it, and at the end there are none.
So in a filter over a record type whatever refers to an element stands in the predicate over the
collection that the element is from. -/
theorem elements_visible :
    (∀ (rules : List Rule) (l : Language) (start : List Parameter) (ts : List Token) (s : ParseState),
      Language.make? rules = .ok l → (ParseState.start start).applyAll l.grammar ts = .ok s →
        Numbered l.grammar start s ∧
        (∀ t s', s.apply l.grammar t = .ok s' → Rescoped l.grammar s t s') ∧
        ∀ e, s.finish l.grammar = .ok e → s.parameters = start) ∧
    ∀ (text : String) (record : RecordType) (f : Lambda), Filter.parse text record = .ok f →
      ∀ path e, Expr.Occurs path e f.body → Expr.Placed record.type path e := by
  constructor
  · intro rules l start ts s made hrun
    have hlinked := linked_of_make? made
    obtain ⟨r, hr, rfl⟩ := Trace.exists_of_applyAll hrun
    have hscope := Trace.InScope.applyAll hlinked hr
    refine ⟨hscope.numbered, fun t s' hstep => ?_, fun e hf => hscope.parameters_of_finish hf⟩
    have hstep := (Trace.state_apply l.grammar r t).trans (toOption_eq_some.2 hstep)
    obtain ⟨r', hr', rfl⟩ := Option.map_eq_some_iff.1 hstep
    exact hscope.rescoped hlinked (Trace.applied_of_apply hr')
  · intro text record f h path e ho
    obtain ⟨-, hbody, -⟩ := @Filter.typed_of_parse False text record f nofun h
    exact hbody.placed ho

/-- The type of articles with tags, each of which has marks. -/
def articleType : RecordType :=
  ⟨"Article", [("Tags", .collection (.record "Tag" [("Marks", .collection .string)]))]⟩

/-- The articles with a tag all of whose marks are the same one. -/
def markedFilter : String := "Tags/any(t: t/Marks/all(m: m eq 'x'))"

/-- The tokens of that filter. -/
def markedTokens : List Token := (Filter.language.scanner.scan markedFilter).tokens

/-- An article with a tag that has two marks and a tag that has none listed. -/
def halfMarkedArticle : Value :=
  .record articleType [.list
    [.record ⟨"Tag", [("Marks", .collection .string)]⟩ [.list [.string "x", .string "y"]],
      .record ⟨"Tag", [("Marks", .collection .string)]⟩ [.null]]]

set_option maxRecDepth 100000 in
/-- The filter is parsed, with three parameters where its inner predicate closes and two behind that, and
fails for that article. All of it is one evaluation, since the language is read anew in each. -/
theorem markedFilter_runs :
    ((((ParseState.start [⟨none, articleType.type⟩]).applyAll Filter.language.grammar
      (markedTokens.take 10)).toOption.any fun s => s.parameters.length == 3 &&
        markedTokens[10]?.any fun close => (s.apply Filter.language.grammar close).toOption.any
          (·.parameters.length == 2)) &&
      (Filter.parse markedFilter articleType).toOption.any fun f =>
        (f.body.evaluate.run [halfMarkedArticle]).1.toOption.isNone) = true := by
  decide +kernel

/-- The elements of two predicates, one inside the other, where the inner one closes and at the end. -/
theorem elements_visible_nested :
    ∃ (s s' final : ParseState) (close : Token) (e : Expr) (f : Lambda),
      Language.make? Filter.rules = .ok Filter.language ∧
      (ParseState.start [⟨none, articleType.type⟩]).applyAll Filter.language.grammar
        (markedTokens.take 10) = .ok s ∧
      s.operators.reverse.filterMap (·.slot) = [1, 2] ∧
      s.apply Filter.language.grammar close = .ok s' ∧
      Rescoped Filter.language.grammar s close s' ∧ s'.parameters.length = 2 ∧
      (ParseState.start [⟨none, articleType.type⟩]).applyAll Filter.language.grammar markedTokens =
        .ok final ∧
      final.finish Filter.language.grammar = .ok e ∧ final.parameters = [⟨none, articleType.type⟩] ∧
      Filter.parse markedFilter articleType = .ok f ∧
      ∀ path e, Expr.Occurs path e f.body → Expr.Placed articleType.type path e := by
  obtain ⟨hrun, hfilter⟩ := Bool.and_eq_true_iff.1 markedFilter_runs
  obtain ⟨s, hs, hstep⟩ := (Option.any_eq_true _ _).1 hrun
  obtain ⟨hlength, hstep⟩ := Bool.and_eq_true_iff.1 hstep
  obtain ⟨close, -, hstep⟩ := (Option.any_eq_true _ _).1 hstep
  obtain ⟨s', hs', hlength'⟩ := (Option.any_eq_true _ _).1 hstep
  obtain ⟨f, hf, -⟩ := (Option.any_eq_true _ _).1 hfilter
  have hs := toOption_eq_some.1 hs
  have hs' := toOption_eq_some.1 hs'
  have hf := toOption_eq_some.1 hf
  obtain ⟨final, e, hend, hfinish⟩ := Filter.exists_of_parse hf
  rw [← markedTokens] at hend
  have made := make?_eq_ofRules Filter.rules_fit
  obtain ⟨hnumbered, hrescoped, -⟩ := elements_visible.1 _ _ _ _ _ made hs
  have hslots := hnumbered.slots
  rw [eq_of_beq hlength] at hslots
  exact ⟨s, s', final, close, e, f, made, hs, hslots, hs', hrescoped _ _ hs', eq_of_beq hlength', hend,
    hfinish, (elements_visible.1 _ _ _ _ _ made hend).2.2 _ hfinish, hf, elements_visible.2 _ _ _ hf⟩

end Parlance
