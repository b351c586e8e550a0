import Parlance.Proofs.Inference
import Parlance.Rows.Load

/-!
# Rows fit their schema

The type of a shape reads all that the shape covers, so rows with one kind on each path are read by the
type that is inferred from all of them, and what is loaded belongs to it (`Rows.load_fits_schema`). No key
of a row is lost: the fields of the schema are the keys that occur in the rows (`Rows.names_of_schemaOf`).
-/

namespace Parlance

/-! ## Schema errors -/

/-- The result is not an error of a schema. -/
def DataError.Avoids {α : Type} (x : Except DataError α) : Prop := ∀ e, x ≠ .error (.schema e)

namespace DataError.Avoids

variable {α β : Type} {x : Except DataError α}

theorem ok (a : α) : Avoids (.ok a) := fun _ h => by cases h

theorem bind {f : α → Except DataError β} (hx : Avoids x) (hf : ∀ a, x = .ok a → Avoids (f a)) :
    Avoids (x >>= f) := by
  cases x with
  | error e =>
    intro e' h
    cases h
    exact hx e' rfl
  | ok a => exact hf a rfl

theorem map {f : α → β} (hx : Avoids x) : Avoids (x.map f) := by
  cases x with
  | error e =>
    intro e' h
    cases h
    exact hx e' rfl
  | ok a => exact ok (f a)

theorem mapM {f : α → Except DataError β} {xs : List α} (h : ∀ a, Avoids (f a)) :
    Avoids (xs.mapM f) := by
  induction xs with
  | nil => exact ok []
  | cons a xs ih =>
    rw [List.mapM_cons]
    exact (h a).bind fun b _ => ih.bind fun bs _ => ok (b :: bs)

theorem foldlM {f : β → α → Except DataError β} {xs : List α} {b : β}
    (h : ∀ b a, Avoids (f b a)) : Avoids (xs.foldlM f b) := by
  induction xs generalizing b with
  | nil => exact ok b
  | cons a xs ih =>
    rw [List.foldlM_cons]
    exact (h b a).bind fun _ _ => ih

theorem merge {path : String} {a b : Shape} : Avoids (Shape.merge path a b) := by
  refine @Shape.merge.induct_unfolding (fun _ _ _ r => Avoids r) (fun _ _ _ r => Avoids r)
    ?_ ?_ ?_ ?_ ?_ ?_ ?_ ?_ ?_ ?_ ?_ ?_ ?_ ?_ ?_ ?_ ?_ ?_ ?_ ?_ ?_ path a b
  iterate 4
    · intros
      exact ok _
  iterate 2
    · intros
      exact bind ‹_› fun c _ => ok c.orNull
  iterate 2
    · intros
      exact ok _
  · intro _ a b ih
    exact ih.bind fun c _ => ok (Shape.list c)
  · intro _ fields others ih
    exact ih.bind fun merged _ => ok (Shape.object (Shape.joinFields fields others merged))
  iterate 7
    · intros
      exact ok _
  · intros
    intro _ h
    cases h
  · intros
    exact ok _
  · intro _ fields name shape others current _ ihfirst ihrest
    exact ihfirst.bind fun first _ => ihrest.bind fun rest _ => ok ((name, first) :: rest)
  · intro _ fields name shape others _ ih
    exact ih

end DataError.Avoids

namespace Shape

variable {s t : Shape} {j : Json}

/-! ## Types of shapes -/

theorem firstRepeated?_go_eq_none {seen names : List String} :
    firstRepeated?.go seen names = none ↔ names.Nodup ∧ ∀ name ∈ names, name ∉ seen := by
  induction names generalizing seen with
  | nil => simp [firstRepeated?.go]
  | cons name names ih =>
    rw [firstRepeated?.go]
    split
    · rename_i hseen
      simp only [reduceCtorEq, false_iff]
      rintro ⟨-, h⟩
      exact h name (by simp) (by simpa using hseen)
    · rename_i hseen
      rw [ih]
      simp only [List.nodup_cons, List.mem_cons, forall_eq_or_imp]
      grind

theorem make?_of_nodup {name : String} {fields : List (String × ValueType)}
    (h : (fields.map (·.1)).Nodup) : RecordType.make? name fields = .ok ⟨name, fields⟩ := by
  unfold RecordType.make? firstRepeated?
  rw [firstRepeated?_go_eq_none.2 ⟨h, by simp⟩]

theorem eq_of_make? {name : String} {fields : List (String × ValueType)} {r : RecordType}
    (h : RecordType.make? name fields = .ok r) : r = ⟨name, fields⟩ := by
  unfold RecordType.make? at h
  split at h <;> cases h
  rfl

theorem toTypes_eq_ok {fields : List (String × Shape)} {types : List (String × ValueType)} :
    toTypes fields = .ok types ↔
      List.Forall₂ (fun f t => t.1 = f.1 ∧ toType f.1 f.2 = .ok t.2) fields types := by
  induction fields generalizing types with
  | nil =>
    rw [toTypes, List.forall₂_nil_left_iff, Except.ok.injEq]
    exact eq_comm
  | cons f fields ih =>
    obtain ⟨name, s⟩ := f
    rw [toTypes, List.forall₂_cons_left_iff, bind_eq_ok]
    constructor
    · rintro ⟨t, ht, h⟩
      obtain ⟨rest, hrest, h⟩ := bind_eq_ok.1 h
      cases h
      exact ⟨(name, t), rest, ⟨rfl, ht⟩, ih.1 hrest, rfl⟩
    · rintro ⟨⟨_, t⟩, rest, ⟨rfl, ht⟩, hrest, rfl⟩
      exact ⟨t, ht, bind_eq_ok.2 ⟨rest, ih.2 hrest, rfl⟩⟩

theorem exists_toTypes {fields : List (String × Shape)}
    (h : ∀ f ∈ fields, ∃ t, toType f.1 f.2 = .ok t) : ∃ types, toTypes fields = .ok types := by
  have hall : ∀ f ∈ fields, ∃ t : String × ValueType, t.1 = f.1 ∧ toType f.1 f.2 = .ok t.2 := by
    intro f hf
    obtain ⟨t, ht⟩ := h f hf
    exact ⟨(f.1, t), rfl, ht⟩
  obtain ⟨types, htypes⟩ := exists_forall₂ hall
  exact ⟨types, toTypes_eq_ok.2 htypes⟩

theorem map_fst_types {fields : List (String × Shape)} {types : List (String × ValueType)}
    (h : List.Forall₂ (fun f t => t.1 = f.1 ∧ toType f.1 f.2 = .ok t.2) fields types) :
    types.map (·.1) = fields.map (·.1) := by
  induction h with
  | nil => rfl
  | cons hf _ ih => rw [List.map_cons, List.map_cons, hf.1, ih]

/-- The type of an object has the types of its fields. -/
theorem types_of_object {name : String} {fields : List (String × Shape)} {t : ValueType}
    (h : toType name (object fields) = .ok t) : ∃ types, t = .record name types ∧
      List.Forall₂ (fun f t => t.1 = f.1 ∧ toType f.1 f.2 = .ok t.2) fields types := by
  rw [toType] at h
  obtain ⟨types, htypes, h⟩ := bind_eq_ok.1 h
  obtain ⟨r, hr, h⟩ := bind_eq_ok.1 h
  cases h
  obtain rfl := eq_of_make? hr
  exact ⟨types, rfl, toTypes_eq_ok.1 htypes⟩

/-- A well-formed shape has a type. -/
theorem exists_toType (h : s.WellFormed) (name : String) : ∃ t, toType name s = .ok t := by
  induction s using ind generalizing name with
  | simple s hs => cases s <;> first | exact ⟨_, rfl⟩ | cases hs
  | list element ih =>
    obtain ⟨t, ht⟩ := ih h name
    exact ⟨_, by rw [toType, ht]; rfl⟩
  | optional inner ih =>
    obtain ⟨t, ht⟩ := ih h.2 name
    exact ⟨_, by rw [toType, ht]; rfl⟩
  | object fields ih =>
    obtain ⟨types, htypes⟩ := exists_toTypes fun f hf =>
      ih f hf (areWellFormed_iff.1 h.2 f hf).2 f.1
    have hnodup : (types.map (·.1)).Nodup := map_fst_types (toTypes_eq_ok.1 htypes) ▸ h.1
    refine ⟨.record name types, ?_⟩
    rw [toType]
    exact bind_eq_ok.2 ⟨types, htypes, bind_eq_ok.2 ⟨_, make?_of_nodup hnodup, rfl⟩⟩

/-- The type of a shape is well formed, and has null among its values where the shape has. -/
theorem wellFormed_toType {name : String} {u : ValueType} (h : toType name s = .ok u) :
    u.WellFormed ∧ (s.admitsNull = true → u.acceptsNull = true) := by
  induction s using ind generalizing name u with
  | simple s hs => cases s <;> first | (cases h; exact ⟨rfl, fun _ => rfl⟩) | (cases h; exact ⟨rfl, nofun⟩) | cases hs
  | list element ih =>
    obtain ⟨t, ht, h⟩ := bind_eq_ok.1 h
    cases h
    exact ⟨(ih ht).1, fun _ => rfl⟩
  | optional inner ih =>
    obtain ⟨t, ht, h⟩ := bind_eq_ok.1 h
    cases h
    exact ⟨(ih ht).1.orNull, fun _ => ValueType.acceptsNull_orNull t⟩
  | object fields ih =>
    obtain ⟨types, rfl, htypes⟩ := types_of_object h
    refine ⟨ValueType.areWellFormed_iff.2 fun t ht => ?_, fun _ => rfl⟩
    obtain ⟨f, hf, -, hft⟩ := (exists_of_forall₂ htypes).2 t ht
    exact (ih f hf hft).1

theorem type_of_object {name : String} {fields : List (String × Shape)} {t : ValueType}
    (h : toType name (object fields) = .ok t) : ∃ r : RecordType, t = r.type := by
  obtain ⟨types, rfl, -⟩ := types_of_object h
  exact ⟨⟨name, types⟩, rfl⟩

/-! ## Reading what a shape covers -/

/-- A number that converts to a kind is read by it. -/
theorem exists_number {whole : ValueType} {kind : NumericKind} {n : Number}
    (hn : Value.jsonNumber? j = some n) (h : (n.convert? kind).isSome = true) :
    ∃ v, Value.ofJsonAs whole (.number kind) j = .ok v := by
  obtain ⟨m, hm⟩ := Option.isSome_iff_exists.1 h
  have hconvert : n.convert kind = .ok m := by rw [Number.convert, hm]
  exact ⟨.number m, Value.ofJsonAs_number hn hconvert⟩

theorem jsonNumber?_integer {n : Int} (h : NumericKind.long.Holds n) :
    Value.jsonNumber? (.integer n) = some (.integral .long n h) := by
  rw [Value.jsonNumber?, Number.ofInt?, dif_pos h]
  rfl

theorem isSome_convert?_decimal {n : Int} (h : NumericKind.long.Holds n) :
    ((Number.integral .long n h).convert? .decimal).isSome = true := by
  rw [Number.convert?, if_neg (by simp [Number.kind]), Option.isSome_map]
  exact Decimal.ofInt?_isSome h

theorem isSome_convert?_spans {x : Float} (h : Decimal.spans x = true) :
    ∃ n, Value.jsonNumber? (.double x) = some n ∧ (n.convert? .decimal).isSome = true := by
  refine ⟨_, rfl, ?_⟩
  split
  · rfl
  · rw [Number.convert?, if_neg (by simp [Number.kind]), Option.isSome_map]
    exact Decimal.ofDouble?_isSome h

/-- The type of a shape reads all that the shape covers. -/
theorem exists_ofJsonAs {name : String} {t whole : ValueType} (hj : s.Covers j) (hs : s.WellFormed)
    (ht : toType name s = .ok t) (hw : t.acceptsNull = true → whole = t) :
    ∃ v, Value.ofJsonAs whole t j = .ok v := by
  induction hj generalizing name t whole with
  | null h =>
    have hnull := (wellFormed_toType ht).2 h
    rw [Value.ofJsonAs_null, hw hnull, if_pos hnull]
    exact ⟨_, rfl⟩
  | bool =>
    cases ht
    exact ⟨_, rfl⟩
  | integer h =>
    cases ht
    exact exists_number (jsonNumber?_integer h) rfl
  | whole h =>
    cases ht
    exact exists_number (jsonNumber?_integer h) (isSome_convert?_decimal h)
  | decimal h =>
    cases ht
    obtain ⟨n, hn, hconvert⟩ := isSome_convert?_spans h
    exact exists_number hn hconvert
  | string =>
    cases ht
    exact ⟨_, rfl⟩
  | dateTime h =>
    cases ht
    obtain ⟨m, hm⟩ := Option.isSome_iff_exists.1 h
    have hm := Calendar.ofText_of_parseMomentAs? hm
    exact ⟨.dateTime m, by simp [Value.ofJsonAs, hm, Except.map]⟩
  | dateTimeOffset h =>
    cases ht
    obtain ⟨m, hm⟩ := Option.isSome_iff_exists.1 h
    have hm := Calendar.ofText_of_parseTimestamp? hm
    exact ⟨.dateTimeOffset m, by simp [Value.ofJsonAs, hm, Except.map]⟩
  | guid h =>
    cases ht
    obtain ⟨g, hg⟩ := Option.isSome_iff_exists.1 h
    exact ⟨.guid g, by simp [Value.ofJsonAs, Guid.ofText, hg, Except.map]⟩
  | list h ih =>
    obtain ⟨element, helement, ht⟩ := bind_eq_ok.1 ht
    cases ht
    obtain ⟨vs, hvs⟩ := exists_forall₂ fun item hitem => ih item hitem hs helement fun _ => rfl
    exact ⟨.list vs, map_eq_ok.2 ⟨vs, mapM_eq_ok.2 hvs, rfl⟩⟩
  | @object shapes fields known held absent ih =>
    obtain ⟨types, rfl, htypes⟩ := types_of_object ht
    have hfields : ∀ t ∈ types, ∃ v, Value.ReadsField (.object fields) t v := by
      rintro ⟨name, t⟩ ht
      obtain ⟨⟨name, s⟩, hf, rfl, htype⟩ := (exists_of_forall₂ htypes).2 _ ht
      have hlookup := lookup_of_mem hs.1 hf
      cases hv : (Json.object fields).field? name with
      | some value =>
        simp only [Value.readsField_of_some hv]
        exact ih hv hlookup (hs.field hlookup).2 htype fun _ => rfl
      | none =>
        have hnull := (wellFormed_toType htype).2 (absent hv hlookup)
        exact ⟨.null, (Value.readsField_of_none hv).2 ⟨rfl, hnull⟩⟩
    obtain ⟨vs, hvs⟩ := exists_forall₂ hfields
    exact ⟨_, map_eq_ok.2 ⟨vs, Value.ofJsonFields_eq_ok.2 hvs, rfl⟩⟩
  | optional hj ih =>
    obtain ⟨inner, hinner, ht⟩ := bind_eq_ok.1 ht
    cases ht
    unfold ValueType.orNull at hw ⊢
    split
    · rename_i hnull
      rw [if_pos hnull] at hw
      exact ih hs.2 hinner hw
    · rename_i hnull
      rw [if_neg hnull] at hw
      obtain rfl := hw rfl
      rw [Value.ofJsonAs_nullable]
      exact ih hs.2 hinner fun h => absurd h hnull

end Shape

/-! ## Rows -/

namespace Rows

variable {rows : List Json} {row : Json} {s : Shape} {o : Option Shape} {schema : RecordType}

/-- What rows show together. -/
def shapeOf : List Json → Shape
  | [] => .object []
  | rows => Shape.ofElements (Shape.ofItems rows)

/-- The keys of an object. -/
def keys : Json → List String
  | .object fields => fields.map (·.1)
  | _ => []

theorem names_ofJson (h : isObject row = true) : ∃ fields, Shape.ofJson row = .object fields ∧
    fields.map (·.1) = keys row := by
  cases row with
  | object fields =>
    refine ⟨_, by rw [Shape.ofJson], ?_⟩
    rw [Shape.ofFields_eq, List.map_map]
    rfl
  | _ => cases h

theorem addShape_none : addShape none row = .ok o ↔
    isObject row = true ∧ o = some (Shape.ofJson row) := by
  unfold addShape
  cases isObject row <;> simp [eq_comm]

theorem addShape_some : addShape (some s) row = .ok o ↔
    isObject row = true ∧ ∃ c, Shape.merge "" s (Shape.ofJson row) = .ok c ∧ o = some c := by
  unfold addShape
  cases isObject row
  · simp
  · rw [if_neg (by simp), map_eq_ok]
    simp [eq_comm]

theorem avoids_addShape : DataError.Avoids (addShape o row) := by
  unfold addShape
  split
  · intro _ h
    cases h
  · split
    · exact .ok _
    · exact DataError.Avoids.merge.map

theorem eq_of_foldlM (h : rows.foldlM addShape (some s) = .ok o) :
    o = some ((Shape.ofItems rows).foldl Shape.add s) ∧ ∀ row ∈ rows, isObject row = true := by
  induction rows generalizing s with
  | nil =>
    cases h
    exact ⟨rfl, by simp⟩
  | cons row rows ih =>
    rw [List.foldlM_cons] at h
    obtain ⟨next, hnext, h⟩ := bind_eq_ok.1 h
    obtain ⟨hrow, c, hc, rfl⟩ := addShape_some.1 hnext
    obtain ⟨rfl, hrows⟩ := ih h
    refine ⟨?_, List.forall_mem_cons.2 ⟨hrow, hrows⟩⟩
    rw [Shape.ofItems, List.foldl_cons, Shape.add, hc]
    rfl

/-- The shapes of rows come together in order, and all rows are objects. -/
theorem getD_of_foldlM (h : rows.foldlM addShape none = .ok o) :
    o.getD (.object []) = shapeOf rows ∧ ∀ row ∈ rows, isObject row = true := by
  cases rows with
  | nil =>
    cases h
    exact ⟨rfl, by simp⟩
  | cons row rows =>
    rw [List.foldlM_cons] at h
    obtain ⟨next, hnext, h⟩ := bind_eq_ok.1 h
    obtain ⟨hrow, rfl⟩ := addShape_none.1 hnext
    obtain ⟨rfl, hrows⟩ := eq_of_foldlM h
    exact ⟨rfl, List.forall_mem_cons.2 ⟨hrow, hrows⟩⟩

/-- The rows of an array agree with one another, so all of them come together. -/
theorem exists_foldlM (hrows : ∀ row ∈ rows, isObject row = true ∧ row.Distinct) (hs : s.WellFormed)
    (agree : (s :: rows.map Shape.ofJson).Pairwise Shape.Agree) :
    ∃ o, rows.foldlM addShape (some s) = .ok o := by
  induction rows generalizing s with
  | nil => exact ⟨some s, rfl⟩
  | cons row rows ih =>
    obtain ⟨⟨hrow, hdistinct⟩, hrows⟩ := List.forall_mem_cons.1 hrows
    obtain ⟨hfirst, hrest⟩ := List.pairwise_cons.1 agree
    obtain ⟨hfirst', hrest'⟩ := List.pairwise_cons.1 hrest
    have hnext := Shape.wellFormed_ofJson hdistinct
    obtain ⟨hmerge, hagree⟩ := Shape.merge_of_agree hs hnext (hfirst _ (by simp)) fun t ht =>
      ⟨hfirst t (by simp [ht]), hfirst' t ht⟩
    obtain ⟨o, ho⟩ := ih hrows ((Shape.merged_of_merge hmerge).wellFormed hs hnext)
      (List.pairwise_cons.2 ⟨hagree, hrest'⟩)
    refine ⟨o, ?_⟩
    rw [List.foldlM_cons]
    exact bind_eq_ok.2 ⟨_, addShape_some.2 ⟨hrow, _, hmerge, rfl⟩, ho⟩

theorem exists_foldlM_none (hrows : ∀ row ∈ rows, isObject row = true ∧ row.Distinct)
    (uniform : (Json.array rows).Uniform) : ∃ o, rows.foldlM addShape none = .ok o := by
  have agree := Shape.agree_of_uniform uniform
  cases rows with
  | nil => exact ⟨none, rfl⟩
  | cons row rows =>
    obtain ⟨⟨hrow, hdistinct⟩, hrows⟩ := List.forall_mem_cons.1 hrows
    obtain ⟨o, ho⟩ := exists_foldlM hrows (Shape.wellFormed_ofJson hdistinct) agree
    refine ⟨o, ?_⟩
    rw [List.foldlM_cons]
    exact bind_eq_ok.2 ⟨_, addShape_none.2 ⟨hrow, rfl⟩, ho⟩

theorem shapeOf_cons : shapeOf (row :: rows) = Shape.ofElements ((row :: rows).map Shape.ofJson) := by
  rw [← Shape.ofItems_eq]
  rfl

theorem object_shapeOf (hrows : ∀ row ∈ rows, isObject row = true) :
    ∃ fields, shapeOf rows = .object fields := by
  cases rows with
  | nil => exact ⟨[], rfl⟩
  | cons row rows =>
    obtain ⟨hrow, hrows⟩ := List.forall_mem_cons.1 hrows
    rw [shapeOf_cons]
    refine Shape.object_foldl_add ((names_ofJson hrow).imp fun _ h => h.1) fun t ht => ?_
    obtain ⟨row, hmem, rfl⟩ := List.mem_map.1 ht
    exact (names_ofJson (hrows row hmem)).imp fun _ h => h.1

theorem wellFormed_shapeOf (hrows : ∀ row ∈ rows, row.Distinct) : (shapeOf rows).WellFormed := by
  cases rows with
  | nil => exact ⟨.nil, trivial⟩
  | cons row rows =>
    rw [shapeOf_cons]
    refine Shape.wellFormed_ofElements fun t ht => ?_
    obtain ⟨row, hmem, rfl⟩ := List.mem_map.1 ht
    exact Shape.wellFormed_ofJson (hrows row hmem)

/-- The schema is the type of what the rows show together. -/
theorem toType_of_schemaOf (h : schemaOf rows = .ok schema) :
    (shapeOf rows).toType typeName = .ok schema.type := by
  obtain ⟨o, ho, h⟩ := bind_eq_ok.1 h
  obtain ⟨t, ht, h⟩ := bind_eq_ok.1 h
  obtain ⟨hshape, hrows⟩ := getD_of_foldlM ho
  obtain ⟨fields, hfields⟩ := object_shapeOf hrows
  rw [hshape] at ht
  have ht := mapError_eq_ok.1 ht
  obtain ⟨r, rfl⟩ := Shape.type_of_object (hfields ▸ ht)
  rw [ValueType.recordType?_eq_some.2 (show r.type.underlying = r.type from rfl)] at h
  cases h
  exact ht

theorem names_of_foldlM {fields : List (String × Shape)}
    (h : rows.foldlM addShape (some (.object fields)) = .ok o) : ∃ results, o = some (.object results) ∧
      ∀ name, name ∈ results.map (·.1) ↔ name ∈ fields.map (·.1) ∨ ∃ row ∈ rows, name ∈ keys row := by
  induction rows generalizing fields with
  | nil =>
    cases h
    exact ⟨fields, rfl, by simp⟩
  | cons row rows ih =>
    rw [List.foldlM_cons] at h
    obtain ⟨next, hnext, h⟩ := bind_eq_ok.1 h
    obtain ⟨hrow, c, hc, rfl⟩ := addShape_some.1 hnext
    obtain ⟨others, hothers, hkeys⟩ := names_ofJson hrow
    rw [hothers] at hc
    obtain ⟨joined, rfl, hjoined⟩ := Shape.names_of_merge hc
    obtain ⟨results, ho, hresults⟩ := ih h
    refine ⟨results, ho, fun name => ?_⟩
    rw [hresults, hjoined, hkeys, or_assoc, List.exists_mem_cons_iff]

/-- The fields of the schema are the keys that occur in the rows. -/
theorem names_of_schemaOf (h : schemaOf rows = .ok schema) (name : String) :
    name ∈ schema.fields.map (·.1) ↔ ∃ row ∈ rows, name ∈ keys row := by
  have htype := toType_of_schemaOf h
  obtain ⟨o, ho, -⟩ := bind_eq_ok.1 h
  have hnames {fields : List (String × Shape)} (hshape : shapeOf rows = .object fields) :
      schema.fields.map (·.1) = fields.map (·.1) := by
    obtain ⟨types, heq, htypes⟩ := Shape.types_of_object (hshape ▸ htype)
    obtain ⟨-, rfl⟩ := ValueType.record.inj heq
    exact Shape.map_fst_types htypes
  have hshape := (getD_of_foldlM ho).1
  cases rows with
  | nil =>
    rw [hnames rfl]
    simp
  | cons row rows =>
    rw [List.foldlM_cons] at ho
    obtain ⟨next, hnext, ho⟩ := bind_eq_ok.1 ho
    obtain ⟨hrow, rfl⟩ := addShape_none.1 hnext
    obtain ⟨fields, hfields, hkeys⟩ := names_ofJson hrow
    rw [hfields] at ho
    obtain ⟨results, rfl, hresults⟩ := names_of_foldlM ho
    rw [hnames hshape.symm, hresults, hkeys, List.exists_mem_cons_iff]

theorem exists_schemaOf (h : rows.foldlM addShape none = .ok o) (hrows : ∀ row ∈ rows, row.Distinct) :
    ∃ schema, schemaOf rows = .ok schema := by
  obtain ⟨hshape, hobjects⟩ := getD_of_foldlM h
  obtain ⟨fields, hfields⟩ := object_shapeOf hobjects
  obtain ⟨t, ht⟩ := Shape.exists_toType (wellFormed_shapeOf hrows) typeName
  obtain ⟨r, rfl⟩ := Shape.type_of_object (hfields ▸ ht)
  refine ⟨r, bind_eq_ok.2 ⟨o, h, bind_eq_ok.2 ⟨r.type, ?_, ?_⟩⟩⟩
  · rw [hshape]
    exact mapError_eq_ok.2 ht
  · rw [ValueType.recordType?_eq_some.2 (show r.type.underlying = r.type from rfl)]

theorem readRow_eq_ok {record : Record} :
    readRow schema row = .ok record ↔ Value.ofJson schema.type row = .ok record.toValue := by
  constructor
  · intro h
    obtain ⟨v, hv, h⟩ := bind_eq_ok.1 h
    cases v with
    | record type fields =>
      cases h
      exact mapError_eq_ok.1 hv
    | _ => cases h
  · intro h
    exact bind_eq_ok.2 ⟨_, mapError_eq_ok.2 h, rfl⟩

theorem exists_readRow (hrow : isObject row = true) {v : Value}
    (h : Value.ofJson schema.type row = .ok v) : ∃ record, readRow schema row = .ok record := by
  cases row with
  | object entries =>
    obtain ⟨fields, hfields, rfl⟩ := map_eq_ok.1 h
    exact ⟨⟨_, fields⟩, readRow_eq_ok.2 h⟩
  | _ => cases hrow

theorem avoids_readRow : DataError.Avoids (readRow schema row) := by
  refine .bind (fun e h => ?_) fun v _ => ?_
  · unfold Except.mapError at h
    split at h <;> cases h
  · split
    · exact .ok _
    · intro _ h
      cases h

theorem avoids_schemaOf (hrows : ∀ row ∈ rows, row.Distinct) : DataError.Avoids (schemaOf rows) := by
  intro e he
  cases ho : rows.foldlM addShape none with
  | error e' =>
    rw [schemaOf, ho] at he
    cases he
    exact DataError.Avoids.foldlM (fun _ _ => avoids_addShape) e ho
  | ok o =>
    obtain ⟨schema, hschema⟩ := exists_schemaOf ho hrows
    rw [hschema] at he
    cases he

theorem covers_shapeOf (distinct : (Json.array rows).Distinct) (fits : (Json.array rows).Fits)
    (uniform : (Json.array rows).Uniform) (hrow : row ∈ rows) : (shapeOf rows).Covers row := by
  cases rows with
  | nil => cases hrow
  | cons first rest =>
    refine Shape.covers_ofElements distinct uniform (fun item hitem => ?_) row hrow
    exact Shape.covers_ofJson (distinct.item hitem) (fits.item hitem) (uniform.item hitem)

theorem load_array {items : List Json} {loaded : Rows} : load (.array items) = .ok loaded ↔
    schemaOf items = .ok loaded.schema ∧
      List.Forall₂ (fun item record => readRow loaded.schema item = .ok record) items loaded.records := by
  rw [← mapM_eq_ok]
  constructor
  · intro h
    obtain ⟨schema, hschema, h⟩ := bind_eq_ok.1 h
    obtain ⟨records, hrecords, h⟩ := bind_eq_ok.1 h
    cases h
    exact ⟨hschema, hrecords⟩
  · rintro ⟨hschema, hrecords⟩
    exact bind_eq_ok.2 ⟨_, hschema, bind_eq_ok.2 ⟨_, hrecords, rfl⟩⟩

/-- Objects load if their numbers fit and no path leads to values of different kinds. -/
theorem exists_load {items : List Json} (distinct : (Json.array items).Distinct)
    (hobjects : ∀ item ∈ items, isObject item = true) (fits : (Json.array items).Fits)
    (uniform : (Json.array items).Uniform) : ∃ loaded, load (.array items) = .ok loaded := by
  have hitems : ∀ item ∈ items, item.Distinct := fun item hitem => distinct.item hitem
  obtain ⟨o, ho⟩ := exists_foldlM_none (fun item hitem => ⟨hobjects item hitem, hitems item hitem⟩) uniform
  obtain ⟨schema, hschema⟩ := exists_schemaOf ho hitems
  have hread : ∀ item ∈ items, ∃ record, readRow schema item = .ok record := by
    intro item hitem
    obtain ⟨v, hv⟩ := Shape.exists_ofJsonAs (covers_shapeOf distinct fits uniform hitem)
      (wellFormed_shapeOf hitems) (toType_of_schemaOf hschema) fun _ => rfl
    exact exists_readRow (hobjects item hitem) hv
  obtain ⟨records, hrecords⟩ := exists_forall₂ hread
  exact ⟨⟨schema, records⟩, load_array.2 ⟨hschema, hrecords⟩⟩

/-- What is loaded has one record for each item of an array, in order; it belongs to the inferred schema,
and a field that an item lacks is null. Objects load if their numbers fit and no path leads to values of
different kinds, and there are no errors of schemas. -/
theorem load_fits_schema (j : Json) (distinct : j.Distinct) :
    (∀ rows, load j = .ok rows → rows.schema.type.WellFormed ∧
      ∃ items, j = .array items ∧ schemaOf items = .ok rows.schema ∧
        List.Forall₂ (fun item record => record.type = rows.schema ∧
          record.toValue.Inhabits rows.schema.type ∧
          List.Forall₂ (Value.ReadsField item) rows.schema.fields record.fields) items rows.records) ∧
    (∀ items, j = .array items → (∀ item ∈ items, isObject item = true) → j.Fits → j.Uniform →
      ∃ rows, load j = .ok rows) ∧
    ∀ e, load j ≠ .error (.schema e) := by
  refine ⟨?_, ?_, ?_⟩
  · intro rows h
    cases j with
    | array items =>
      obtain ⟨hschema, hrecords⟩ := load_array.1 h
      have hwf := (Shape.wellFormed_toType (toType_of_schemaOf hschema)).1
      refine ⟨hwf, items, rfl, hschema, hrecords.imp fun item record hrecord => ?_⟩
      have hvalue := readRow_eq_ok.1 hrecord
      obtain ⟨htype, hfields⟩ := Value.fields_of_ofJsonAs hvalue
      exact ⟨htype, Value.inhabits_of_ofJsonAs (.inl rfl) hwf hvalue, hfields⟩
    | _ => cases h
  · rintro items rfl hobjects fits uniform
    exact exists_load distinct hobjects fits uniform
  · cases j with
    | array items =>
      exact (avoids_schemaOf fun item hitem => distinct.item hitem).bind fun schema _ =>
        (DataError.Avoids.mapM fun _ => avoids_readRow).bind fun records _ => .ok (Rows.mk schema records)
    | _ =>
      intro e h
      cases h

/-- Orders with whole and other prices, a time that is null or absent, and lists that may be empty. -/
def orderItems : List Json := [
  .object [("at", .string "2024-05-01T10:00:00Z"), ("lines", .array []), ("price", .integer 3)],
  .object [("at", .null), ("lines", .array [.string "desk", .null]), ("price", .double 0.25)],
  .object [("buyer", .object [("id", .integer 7)]), ("price", .double 12.5)]]

@[inherit_doc orderItems] def orders : Json := .array orderItems

/-- The type of these orders: all their keys, with null for what lacks in one of them. -/
def orderSchema : RecordType := ⟨"Row", [("at", .nullable .dateTimeOffset), ("lines", .collection .string),
  ("price", .number .decimal), ("buyer", .record "buyer" [("id", .number .long)])]⟩

/-- Every key of an order is a field of the schema, and what lacks somewhere may be null. -/
theorem load_orders : ∃ rows, load orders = .ok rows ∧ rows.schema = orderSchema ∧
    rows.records.length = 3 ∧
    ∀ record ∈ rows.records, record.type = orderSchema ∧ record.toValue.Inhabits orderSchema.type := by
  obtain ⟨hfits, hloads, -⟩ := load_fits_schema orders (by decide +kernel)
  obtain ⟨rows, hrows⟩ := hloads _ rfl (by decide +kernel) (by decide +kernel) (by decide +kernel)
  obtain ⟨-, items, hitems, hschema, hall⟩ := hfits rows hrows
  obtain rfl : orderItems = items := Json.array.inj hitems
  have hinferred : (schemaOf orderItems).toOption = some orderSchema := by decide +kernel
  have hpinned : rows.schema = orderSchema := by
    rw [hschema] at hinferred
    exact Option.some.inj hinferred
  rw [hpinned] at hall
  refine ⟨rows, hrows, hpinned, hall.length_eq.symm, fun record hrecord => ?_⟩
  obtain ⟨item, -, htype, hinhabits, -⟩ := (exists_of_forall₂ hall).2 record hrecord
  exact ⟨htype, hinhabits⟩

end Rows

end Parlance
