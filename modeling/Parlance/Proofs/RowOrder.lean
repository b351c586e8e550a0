import Parlance.Proofs.Bounds

/-!
# The order of rows does not matter

Two types are alike if they differ only in the order in which records have their fields
(`ValueType.Alike`), and so are two values (`Value.Alike`). Shapes below one another have types that are
alike, and by these a JSON value is read as values that are alike, so that rows load in any order if
they load in one, and come out the same.
-/

namespace Parlance

/-! ## Types and values up to the order of fields -/

/-- Types that differ only in the order of the fields of records. -/
inductive ValueType.Alike : ValueType → ValueType → Prop
  | refl (t : ValueType) : Alike t t
  | collection {t u : ValueType} (h : Alike t u) : Alike (collection t) (collection u)
  | nullable {t u : ValueType} (h : Alike t u) : Alike (nullable t) (nullable u)
  | record {name : String} {fields others : List (String × ValueType)}
      (names : (fields.map (·.1)).Perm (others.map (·.1)))
      (common : ∀ {field : String} {t u : ValueType}, (field, t) ∈ fields → (field, u) ∈ others →
        Alike t u) :
      Alike (record name fields) (record name others)

/-- Values that differ only in the order of the fields of records. -/
inductive Value.Alike : Value → Value → Prop
  | refl (v : Value) : Alike v v
  | list {vs ws : List Value} (h : List.Forall₂ Alike vs ws) : Alike (list vs) (list ws)
  | record {r s : RecordType} {vs ws : List Value} (type : r.type.Alike s.type)
      (left : vs.length = r.fields.length) (right : ws.length = s.fields.length)
      (common : ∀ {field : String} {v w : Value}, (field, v) ∈ (r.fields.map (·.1)).zip vs →
        (field, w) ∈ (s.fields.map (·.1)).zip ws → Alike v w) :
      Alike (record r vs) (record s ws)

/-! ## Types of shapes -/

namespace ValueType

variable {t u : ValueType}

theorem Alike.acceptsNull (h : t.Alike u) : t.acceptsNull = u.acceptsNull := by
  cases h <;> rfl

theorem Alike.orNull (h : t.Alike u) : t.orNull.Alike u.orNull := by
  unfold ValueType.orNull
  rw [h.acceptsNull]
  split
  · exact h
  · exact .nullable h

theorem orNull_orNull (t : ValueType) : t.orNull.orNull = t.orNull := by
  rw [ValueType.orNull, if_pos (acceptsNull_orNull t)]

end ValueType

namespace Shape

variable {s a b : Shape} {name : String} {t u : ValueType} {fields others : List (String × Shape)}

/-- The type of a place is that of its values, with null where null has been seen. -/
theorem toType_core (h : toType name s = .ok t) :
    ∃ u, toType name s.core = .ok u ∧ t = if s.isOptional then u.orNull else u := by
  induction s using ind generalizing t with
  | simple s hs =>
    cases s with
    | null =>
      cases h
      exact ⟨.string, rfl, rfl⟩
    | list => cases hs
    | object => cases hs
    | optional => cases hs
    | _ => exact ⟨t, h, rfl⟩
  | list => exact ⟨t, h, rfl⟩
  | object => exact ⟨t, h, rfl⟩
  | optional inner ih =>
    rw [toType] at h
    obtain ⟨t, ht, h⟩ := bind_eq_ok.1 h
    cases h
    obtain ⟨u, hu, rfl⟩ := ih ht
    refine ⟨u, hu, ?_⟩
    split
    · exact u.orNull_orNull
    · rfl

/-- Shapes that are below one another and have alike types but for null have alike types. -/
theorem alike_of_core (hab : a.Below b) (hba : b.Below a)
    (hcore : ∀ {t u : ValueType}, toType name a.core = .ok t → toType name b.core = .ok u → t.Alike u)
    (ha : toType name a = .ok t) (hb : toType name b = .ok u) : t.Alike u := by
  obtain ⟨t, ht, rfl⟩ := toType_core ha
  obtain ⟨u, hu, rfl⟩ := toType_core hb
  have hoptional : a.isOptional = b.isOptional := Bool.eq_iff_iff.2 ⟨hab.isOptional, hba.isOptional⟩
  rw [hoptional]
  split
  · exact (hcore ht hu).orNull
  · exact hcore ht hu

theorem eq_of_below_unknown (h : s.core.Below unknown) : s.core = unknown := by
  generalize hc : s.core = c at h
  cases h with
  | unknown => rfl
  | null hu => cases hu
  | optional hu => cases hu
  | scalar hs hu =>
    subst hu
    cases hs
  | whole hu => cases hu
  | text _ hu => cases hu
  | list hu => cases hu
  | object hu => cases hu

theorem eq_of_below_scalar (hs : s.isScalar = true) (hsb : s.Below b) (hbs : b.Below s) :
    b.core = s := by
  have hcore := core_of_isScalar hs
  cases hsb with
  | scalar _ hu => exact hu
  | whole hu =>
    have := hbs.core
    rw [hu, below_decimal] at this
    cases this
  | text _ hu =>
    have := hbs.core
    rw [hu, below_string, core_core, hcore] at this
    exact hu.trans this.symm
  | _ => cases hs

/-- The names in two lists of fields of which each is below the other are the same. -/
theorem perm_of_belowField (hfields : (fields.map (·.1)).Nodup) (hothers : (others.map (·.1)).Nodup)
    (hab : ∀ name : String, BelowField (fields.lookup name) (others.lookup name))
    (hba : ∀ name : String, BelowField (others.lookup name) (fields.lookup name)) :
    (fields.map (·.1)).Perm (others.map (·.1)) := by
  have subset {fields others : List (String × Shape)} (hfields : (fields.map (·.1)).Nodup)
      (h : ∀ name : String, BelowField (fields.lookup name) (others.lookup name)) (name : String)
      (hname : name ∈ fields.map (·.1)) : name ∈ others.map (·.1) := by
    obtain ⟨⟨other, a⟩, hmem, rfl⟩ := List.mem_map.1 hname
    have hbelow := h other
    rw [lookup_of_mem hfields hmem] at hbelow
    cases hb : others.lookup other with
    | none =>
      rw [hb] at hbelow
      exact hbelow.elim
    | some b => exact List.mem_map.2 ⟨_, mem_of_lookup hb, rfl⟩
  exact (List.perm_ext_iff_of_nodup hfields hothers).2 fun name =>
    ⟨subset hfields hab name, subset hothers hba name⟩

/-- Shapes that are below one another but for null have alike types but for null. -/
theorem alike_toType_core (ha : a.WellFormed) (hb : b.WellFormed) (hab : a.core.Below b.core)
    (hba : b.core.Below a.core) (hta : toType name a.core = .ok t) (htb : toType name b.core = .ok u) :
    t.Alike u := by
  induction a using ind generalizing b name t u with
  | simple s hs =>
    have heq : b.core = s.core := by
      cases hscalar : s.isScalar with
      | true =>
        rw [core_of_isScalar hscalar] at hab hba ⊢
        exact (core_core b).symm.trans (eq_of_below_scalar hscalar hab hba)
      | false =>
        have hunknown : s.core = unknown := by
          cases s <;> first | rfl | contradiction
        rw [hunknown] at hba ⊢
        exact eq_of_below_unknown hba
    rw [heq, hta] at htb
    cases htb
    exact .refl t
  | list element ih =>
    obtain ⟨f, hf, hef⟩ := below_list.1 hab
    rw [core_core] at hf
    rw [hf] at hba htb
    obtain ⟨e, he, hfe⟩ := below_list.1 hba
    cases he
    have hwf : f.WellFormed := show (list f).WellFormed from hf ▸ hb.core
    obtain ⟨t, ht, hta⟩ := bind_eq_ok.1 hta
    obtain ⟨u, hu, htb⟩ := bind_eq_ok.1 htb
    cases hta
    cases htb
    exact .collection (alike_of_core hef hfe (ih ha hwf hef.core hfe.core) ht hu)
  | object fields ih =>
    obtain ⟨others, hothers, hfo⟩ := below_object.1 hab
    rw [core_core] at hothers
    rw [hothers] at hba htb
    obtain ⟨_, heq, hof⟩ := below_object.1 hba
    cases heq
    have hwf : (object others).WellFormed := hothers ▸ hb.core
    obtain ⟨types, rfl, htypes⟩ := types_of_object hta
    obtain ⟨types', rfl, htypes'⟩ := types_of_object htb
    refine .record ?_ fun {field t u} ht hu => ?_
    · rw [map_fst_types htypes, map_fst_types htypes']
      exact perm_of_belowField ha.1 hwf.1 hfo hof
    · obtain ⟨⟨_, a⟩, hfield, rfl, ht⟩ := (exists_of_forall₂ htypes).2 _ ht
      obtain ⟨⟨_, b⟩, hother, heq, hu⟩ := (exists_of_forall₂ htypes').2 _ hu
      cases heq
      have hla := lookup_of_mem ha.1 hfield
      have hlb := lookup_of_mem hwf.1 hother
      have hab := hfo field
      have hba := hof field
      rw [hla, hlb] at hab hba
      exact alike_of_core hab hba
        (ih _ hfield (ha.field hla).2 (hwf.field hlb).2 hab.core hba.core) ht hu
  | optional inner ih => exact ih ha.2 hb hab hba hta htb

/-- Shapes that are below one another have alike types. -/
theorem alike_toType (ha : a.WellFormed) (hb : b.WellFormed) (hab : a.Below b) (hba : b.Below a)
    (hta : toType name a = .ok t) (htb : toType name b = .ok u) : t.Alike u :=
  alike_of_core hab hba (alike_toType_core ha hb hab.core hba.core) hta htb

end Shape

/-! ## Reading by alike types -/

theorem exists_forall₂_both {α β γ : Type} {R : α → β → Prop} {S : α → γ → Prop} {T : β → γ → Prop}
    {xs : List α} {ys : List β} (h : List.Forall₂ R xs ys) (step : ∀ x y, R x y → ∃ z, S x z ∧ T y z) :
    ∃ zs, List.Forall₂ S xs zs ∧ List.Forall₂ T ys zs := by
  induction h with
  | nil => exact ⟨[], .nil, .nil⟩
  | @cons x y _ _ hxy _ ih =>
    obtain ⟨z, hx, hy⟩ := step x y hxy
    obtain ⟨zs, hxs, hys⟩ := ih
    exact ⟨z :: zs, .cons hx hxs, .cons hy hys⟩

theorem exists_getElem?_of_forall₂ {α β : Type} {R : α → β → Prop} {xs : List α} {ys : List β} {i : Nat}
    {x : α} (h : List.Forall₂ R xs ys) (hx : xs[i]? = some x) : ∃ y, ys[i]? = some y ∧ R x y := by
  induction h generalizing i with
  | nil => cases hx
  | @cons a b _ _ hab _ ih =>
    cases i with
    | zero =>
      cases hx
      exact ⟨b, rfl, hab⟩
    | succ i => exact ih hx

namespace Value

variable {whole whole' t u : ValueType} {j : Json} {v w : Value} {field : String}

theorem ofJsonAs_null_eq_ok : ofJsonAs whole t .null = .ok v ↔ whole.acceptsNull = true ∧ v = .null := by
  rw [ofJsonAs_null]
  cases whole.acceptsNull <;> simp [eq_comm]

theorem ReadsField.unique {g : String × ValueType} (hv : ReadsField j g v) (hw : ReadsField j g w) :
    v = w := by
  unfold ReadsField at hv hw
  cases hg : j.field? g.1 with
  | some json =>
    simp only [hg] at hv hw
    rw [hv] at hw
    cases hw
    rfl
  | none =>
    simp only [hg] at hv hw
    exact hv.1.trans hw.1.symm

theorem exists_alike_of_readsField (h : t.Alike u)
    (ih : ∀ {json : Json} {v : Value}, ofJsonAs t t json = .ok v →
      ∃ w, ofJsonAs u u json = .ok w ∧ v.Alike w) (hv : ReadsField j (field, t) v) :
    ∃ w, ReadsField j (field, u) w ∧ v.Alike w := by
  cases hj : j.field? field with
  | some json =>
    simp only [readsField_of_some hj] at hv ⊢
    exact ih hv
  | none =>
    obtain ⟨rfl, hnull⟩ := (readsField_of_none hj).1 hv
    exact ⟨.null, (readsField_of_none hj).2 ⟨rfl, h.acceptsNull ▸ hnull⟩, .refl _⟩

/-- The values of fields, with the names of the fields. -/
theorem exists_of_mem_zip {fields : List (String × ValueType)} {vs : List Value}
    (h : List.Forall₂ (ReadsField j) fields vs) (hv : (field, v) ∈ (fields.map (·.1)).zip vs) :
    ∃ t, (field, t) ∈ fields ∧ ReadsField j (field, t) v := by
  induction h with
  | nil => cases hv
  | @cons f v fields vs hf _ ih =>
    rw [List.map_cons, List.zip_cons_cons, List.mem_cons] at hv
    rcases hv with heq | hv
    · cases heq
      exact ⟨f.2, List.mem_cons_self, hf⟩
    · obtain ⟨t, ht, hread⟩ := ih hv
      exact ⟨t, List.mem_cons_of_mem _ ht, hread⟩

/-- Two types to read by with their wrappers: both have none, or both have the one that is taken off. -/
theorem acceptsNull_eq (h : t.Alike u)
    (hwhole : whole = t ∧ whole' = u ∨ whole = .nullable t ∧ whole' = .nullable u) :
    whole.acceptsNull = whole'.acceptsNull := by
  rcases hwhole with ⟨rfl, rfl⟩ | ⟨rfl, rfl⟩
  · exact h.acceptsNull
  · rfl

/-- What is read by a type is read by an alike one, and is alike. -/
theorem exists_alike_of_ofJsonAs (h : t.Alike u)
    (hwhole : whole = t ∧ whole' = u ∨ whole = .nullable t ∧ whole' = .nullable u)
    (hv : ofJsonAs whole t j = .ok v) : ∃ w, ofJsonAs whole' u j = .ok w ∧ v.Alike w := by
  induction h generalizing whole whole' j v with
  | refl t =>
    obtain rfl : whole = whole' := by
      rcases hwhole with ⟨rfl, rfl⟩ | ⟨rfl, rfl⟩ <;> rfl
    exact ⟨v, hv, .refl v⟩
  | nullable h ih =>
    rcases hwhole with ⟨rfl, rfl⟩ | ⟨rfl, rfl⟩
    · rw [ofJsonAs_nullable] at hv
      obtain ⟨w, hw, hvw⟩ := ih (.inr ⟨rfl, rfl⟩) hv
      exact ⟨w, by rw [ofJsonAs_nullable, hw], hvw⟩
    · rw [← ofJsonAs_nullable] at hv
      by_cases hj : j = .null
      · subst hj
        obtain ⟨-, rfl⟩ := ofJsonAs_null_eq_ok.1 hv
        exact ⟨.null, ofJsonAs_null_eq_ok.2 ⟨rfl, rfl⟩, .refl _⟩
      · cases (ofJson_nullable_nullable hj).symm.trans hv
  | @collection t u h ih =>
    have hnull := acceptsNull_eq (.collection h) hwhole
    cases j with
    | null =>
      obtain ⟨haccepts, rfl⟩ := ofJsonAs_null_eq_ok.1 hv
      exact ⟨.null, ofJsonAs_null_eq_ok.2 ⟨hnull ▸ haccepts, rfl⟩, .refl _⟩
    | array items =>
      obtain ⟨vs, hvs, rfl⟩ := map_eq_ok.1 hv
      obtain ⟨ws, hws, halike⟩ := exists_forall₂_both (mapM_eq_ok.1 hvs) fun _ _ hitem =>
        ih (.inl ⟨rfl, rfl⟩) hitem
      exact ⟨.list ws, map_eq_ok.2 ⟨ws, mapM_eq_ok.2 hws, rfl⟩, .list halike⟩
    | _ => cases hv
  | @record name fields others names common ih =>
    have hnull := acceptsNull_eq (.record names common) hwhole
    cases j with
    | null =>
      obtain ⟨haccepts, rfl⟩ := ofJsonAs_null_eq_ok.1 hv
      exact ⟨.null, ofJsonAs_null_eq_ok.2 ⟨hnull ▸ haccepts, rfl⟩, .refl _⟩
    | object entries =>
      obtain ⟨vs, hvs, rfl⟩ := map_eq_ok.1 hv
      have hvs := ofJsonFields_eq_ok.1 hvs
      have halike {field : String} {t u : ValueType} (ht : (field, t) ∈ fields)
          (hu : (field, u) ∈ others) {v : Value} (hv : ReadsField (.object entries) (field, t) v) :
          ∃ w, ReadsField (.object entries) (field, u) w ∧ v.Alike w :=
        exists_alike_of_readsField (common ht hu) (ih ht hu (.inl ⟨rfl, rfl⟩)) hv
      have hothers : ∀ g ∈ others, ∃ w, ReadsField (.object entries) g w := by
        rintro ⟨field, u⟩ hu
        obtain ⟨⟨_, t⟩, ht, rfl⟩ := List.mem_map.1
          (names.mem_iff.2 (List.mem_map.2 ⟨(field, u), hu, rfl⟩))
        obtain ⟨v, -, hv⟩ := (exists_of_forall₂ hvs).1 _ ht
        obtain ⟨w, hw, -⟩ := halike ht hu hv
        exact ⟨w, hw⟩
      obtain ⟨ws, hws⟩ := exists_forall₂ hothers
      refine ⟨.record ⟨name, others⟩ ws,
        map_eq_ok.2 ⟨ws, ofJsonFields_eq_ok.2 hws, rfl⟩,
        .record (.record names common) hvs.length_eq.symm hws.length_eq.symm ?_⟩
      intro field v w hv hw
      obtain ⟨t, ht, hv⟩ := exists_of_mem_zip hvs hv
      obtain ⟨u, hu, hw⟩ := exists_of_mem_zip hws hw
      obtain ⟨w', hw', hvw⟩ := halike ht hu hv
      exact hw.unique hw' ▸ hvw
    | _ => cases hv

end Value

/-! ## Rows in any order -/

namespace Rows

variable {rows rows' : List Json} {schema schema' : RecordType}

theorem getD_eq_shapeOf {o : Option Shape} (h : rows.foldlM addShape none = .ok o) (hne : rows ≠ []) :
    o.getD .unknown = shapeOf rows := by
  rw [← (getD_of_foldlM h).1]
  cases rows with
  | nil => exact absurd rfl hne
  | cons row rows =>
    rw [List.foldlM_cons] at h
    obtain ⟨next, hnext, h⟩ := bind_eq_ok.1 h
    obtain ⟨-, rfl⟩ := addShape_none.1 hnext
    obtain ⟨rfl, -⟩ := eq_of_foldlM h
    rfl

/-- Rows that come together do so in any order, and show no more than in the first one. -/
theorem exists_foldlM_of_perm {o : Option Shape} (hrows : ∀ row ∈ rows, row.Distinct)
    (perm : rows.Perm rows') (h : rows.foldlM addShape none = .ok o) :
    ∃ o', rows'.foldlM addShape none = .ok o' ∧ (o'.getD .unknown).Below (o.getD .unknown) := by
  have hnone : (Option.getD none Shape.unknown).WellFormed := trivial
  have hobjects := (getD_of_foldlM h).2
  have hall := ((below_iff_of_foldlM hrows hnone h).1 (.refl _)).2
  have hall' : ∀ row ∈ rows', (Shape.ofJson row).Below (o.getD .unknown) :=
    fun row hrow => hall row (perm.mem_iff.2 hrow)
  have hrows' : ∀ row ∈ rows', isObject row = true ∧ row.Distinct :=
    fun row hrow => ⟨hobjects row (perm.mem_iff.2 hrow), hrows row (perm.mem_iff.2 hrow)⟩
  obtain ⟨o', ho'⟩ := exists_foldlM_of_below hrows' hnone .unknown hall'
  have hbelow := (below_iff_of_foldlM (fun row hrow => (hrows' row hrow).2) hnone ho').2 ⟨.unknown, hall'⟩
  exact ⟨o', ho', hbelow⟩

theorem exists_foldlM_of_schemaOf (h : schemaOf rows = .ok schema) :
    ∃ o, rows.foldlM addShape none = .ok o := by
  obtain ⟨o, ho, -⟩ := bind_eq_ok.1 h
  exact ⟨o, ho⟩

/-- Rows have a common type in any order if they have one, up to the order of fields. -/
theorem exists_schemaOf_of_perm (hrows : ∀ row ∈ rows, row.Distinct) (perm : rows.Perm rows')
    (h : schemaOf rows = .ok schema) :
    ∃ schema', schemaOf rows' = .ok schema' ∧ schema.type.Alike schema'.type := by
  by_cases hne : rows = []
  · subst hne
    rw [perm.nil_eq] at h
    exact ⟨schema, h, .refl _⟩
  have hne' : rows' ≠ [] := by
    rintro rfl
    exact hne perm.eq_nil
  have hrows' : ∀ row ∈ rows', row.Distinct := fun row hrow => hrows row (perm.mem_iff.2 hrow)
  obtain ⟨o, ho⟩ := exists_foldlM_of_schemaOf h
  obtain ⟨o', ho', hbelow⟩ := exists_foldlM_of_perm hrows perm ho
  obtain ⟨o'', ho'', hbelow'⟩ := exists_foldlM_of_perm hrows' perm.symm ho'
  rw [ho] at ho''
  cases ho''
  rw [getD_eq_shapeOf ho hne, getD_eq_shapeOf ho' hne'] at hbelow hbelow'
  obtain ⟨schema', hschema'⟩ := exists_schemaOf ho' hrows'
  refine ⟨schema', hschema', ?_⟩
  exact Shape.alike_toType (wellFormed_shapeOf hrows) (wellFormed_shapeOf hrows') hbelow' hbelow
    (toType_of_schemaOf h) (toType_of_schemaOf hschema')

/-- A row is read by alike types as records that are alike. -/
theorem exists_alike_of_readRow {row : Json} {record : Record} (h : schema.type.Alike schema'.type)
    (hread : readRow schema row = .ok record) : ∃ record', readRow schema' row = .ok record' ∧
      record.toValue.Alike record'.toValue := by
  obtain ⟨w, hw, halike⟩ := Value.exists_alike_of_ofJsonAs h (.inl ⟨rfl, rfl⟩) (readRow_eq_ok.1 hread)
  cases halike with
  | refl => exact ⟨record, readRow_eq_ok.2 hw, .refl _⟩
  | @record _ s _ ws type left right common =>
    exact ⟨⟨s, ws⟩, readRow_eq_ok.2 hw, .record type left right common⟩

/-- The rows of an array load in any order if they load in one. -/
theorem exists_load_of_perm (hrows : ∀ row ∈ rows, row.Distinct) (perm : rows.Perm rows')
    (h : ∃ loaded, load (.array rows) = .ok loaded) : ∃ loaded, load (.array rows') = .ok loaded := by
  obtain ⟨loaded, h⟩ := h
  obtain ⟨hschema, hrecords⟩ := load_array.1 h
  obtain ⟨schema', hschema', halike⟩ := exists_schemaOf_of_perm hrows perm hschema
  have hread : ∀ row ∈ rows', ∃ record, readRow schema' row = .ok record := by
    intro row hrow
    obtain ⟨record, -, hrecord⟩ := (exists_of_forall₂ hrecords).1 row (perm.mem_iff.2 hrow)
    obtain ⟨record', hrecord', -⟩ := exists_alike_of_readRow halike hrecord
    exact ⟨record', hrecord'⟩
  obtain ⟨records', hrecords'⟩ := exists_forall₂ hread
  exact ⟨⟨schema', records'⟩, load_array.2 ⟨hschema', hrecords'⟩⟩

/-- Rows load in any order or in none. Their types are then the same up to the order of fields, and so
are the records that one row is read as, wherever it stands. -/
theorem load_perm (rows rows' : List Json) (distinct : (Json.array rows).Distinct)
    (perm : rows.Perm rows') :
    ((∃ loaded, load (.array rows) = .ok loaded) ↔ ∃ loaded, load (.array rows') = .ok loaded) ∧
    ∀ loaded loaded', load (.array rows) = .ok loaded → load (.array rows') = .ok loaded' →
      loaded.schema.type.Alike loaded'.schema.type ∧
      ∀ (i k : Nat) (row : Json), rows[i]? = some row → rows'[k]? = some row →
        ∃ record record', loaded.records[i]? = some record ∧ loaded'.records[k]? = some record' ∧
          record.toValue.Alike record'.toValue := by
  have hrows : ∀ row ∈ rows, row.Distinct := fun row hrow => distinct.item hrow
  have hrows' : ∀ row ∈ rows', row.Distinct := fun row hrow => hrows row (perm.mem_iff.2 hrow)
  refine ⟨⟨exists_load_of_perm hrows perm, exists_load_of_perm hrows' perm.symm⟩, ?_⟩
  intro loaded loaded' h h'
  obtain ⟨hschema, hrecords⟩ := load_array.1 h
  obtain ⟨hschema', hrecords'⟩ := load_array.1 h'
  obtain ⟨schema', hsame, halike⟩ := exists_schemaOf_of_perm hrows perm hschema
  rw [hschema'] at hsame
  cases hsame
  refine ⟨halike, fun i k row hi hk => ?_⟩
  obtain ⟨record, hrecord, hread⟩ := exists_getElem?_of_forall₂ hrecords hi
  obtain ⟨record', hrecord', hread'⟩ := exists_getElem?_of_forall₂ hrecords' hk
  obtain ⟨record'', hread'', hboth⟩ := exists_alike_of_readRow halike hread
  rw [hread'] at hread''
  cases hread''
  exact ⟨record, record', hrecord, hrecord', hboth⟩

/-- Readings with a whole and another value, of which each has fields that the other lacks. -/
def readings : List Json := [
  .object [("at", .string "2024-05-01T10:00:00Z"), ("value", .integer 3)],
  .object [("tags", .array [.string "raw", .null]), ("unit", .string "K"), ("value", .double 0.5)]]

theorem load_readings : ∃ loaded loaded', load (.array readings) = .ok loaded ∧
    load (.array readings.reverse) = .ok loaded' ∧ loaded.schema.type.Alike loaded'.schema.type ∧
    ∃ record record', loaded.records[0]? = some record ∧ loaded'.records[1]? = some record' ∧
      record.toValue.Alike record'.toValue := by
  have hdistinct : (Json.array readings).Distinct := by decide +kernel
  obtain ⟨hiff, hsame⟩ := load_perm readings readings.reverse hdistinct (List.reverse_perm _).symm
  obtain ⟨loaded, h⟩ := exists_load hdistinct (by decide +kernel) (by decide +kernel) (by decide +kernel)
  obtain ⟨loaded', h'⟩ := hiff.1 ⟨loaded, h⟩
  obtain ⟨hschema, hrecords⟩ := hsame loaded loaded' h h'
  exact ⟨loaded, loaded', h, h', hschema, hrecords 0 1 _ rfl rfl⟩

end Rows

end Parlance
