import Parlance.Proofs.Merging

/-!
# Shapes of JSON values

The shape of a value shows only kinds that the value has. So the elements of a value with one kind on
each path merge without conflicts, and its shape covers it (`Shape.covers_ofJson`).
-/

namespace Parlance.Shape

open Json (Step Kind)

variable {s t : Shape} {j : Json} {path : List Step} {k : Kind} {shapes : List Shape}

/-! ## Shapes of texts, elements and fields -/

theorem isText_ofText (text : String) : (ofText text).isText = true := by
  unfold ofText
  split
  · rfl
  · split
    · rfl
    · split <;> rfl

theorem covers_ofText (text : String) : (ofText text).Covers (.string text) := by
  unfold ofText
  split
  · exact .dateTimeOffset ‹_›
  · split
    · exact .dateTime ‹_›
    · split
      · rename_i hguid
        simp only [Bool.and_eq_true] at hguid
        exact .guid hguid.2
      · exact .string

theorem ofItems_eq (items : List Json) : ofItems items = items.map ofJson := by
  induction items with
  | nil => rfl
  | cons item items ih => rw [ofItems, List.map_cons, ih]

theorem ofFields_eq (fields : List (String × Json)) :
    ofFields fields = fields.map fun f => (f.1, ofJson f.2) := by
  induction fields with
  | nil => rfl
  | cons f fields ih => rw [ofFields, List.map_cons, ih]

theorem lookup_ofFields (fields : List (String × Json)) (name : String) :
    (ofFields fields).lookup name = (fields.lookup name).map ofJson := by
  rw [ofFields_eq]
  exact lookup_map_snd (fun _ value => ofJson value) fields

/-! ## Shapes of lists -/

/-- One more element: it shows nothing if it conflicts with those before it. -/
def add (s next : Shape) : Shape := (merge "" s next).toOption.getD s

theorem add_eq (s next : Shape) : s.add next = s ∨ Merged s next (s.add next) := by
  unfold add
  cases h : merge "" s next with
  | error e => exact .inl rfl
  | ok c => exact .inr (merged_of_merge h)

theorem shows_foldl_add (h : (shapes.foldl add s).Shows path k) : ∃ t ∈ s :: shapes, t.Shows path k := by
  induction shapes generalizing s with
  | nil => exact ⟨s, by simp, h⟩
  | cons next shapes ih =>
    obtain ⟨t, ht, hk⟩ := ih h
    rcases List.mem_cons.1 ht with rfl | ht
    · rcases add_eq s next with heq | hm
      · exact ⟨s, by simp, heq ▸ hk⟩
      · rcases hm.shows hk with hk | hk
        · exact ⟨s, by simp, hk⟩
        · exact ⟨next, by simp, hk⟩
    · exact ⟨t, by simp [ht], hk⟩

theorem wellFormed_foldl_add (hs : s.WellFormed) (h : ∀ t ∈ shapes, t.WellFormed) :
    (shapes.foldl add s).WellFormed := by
  induction shapes generalizing s with
  | nil => exact hs
  | cons next shapes ih =>
    obtain ⟨hnext, h⟩ := List.forall_mem_cons.1 h
    refine ih ?_ h
    rcases add_eq s next with heq | hm
    · rw [heq]
      exact hs
    · exact hm.wellFormed hs hnext

/-- Objects come together as an object. -/
theorem object_foldl_add (hs : ∃ fields, s = object fields)
    (h : ∀ t ∈ shapes, ∃ fields, t = object fields) : ∃ fields, shapes.foldl add s = object fields := by
  induction shapes generalizing s with
  | nil => exact hs
  | cons next shapes ih =>
    obtain ⟨⟨others, rfl⟩, hrest⟩ := List.forall_mem_cons.1 h
    obtain ⟨fields, rfl⟩ := hs
    refine ih ?_ hrest
    rcases add_eq (object fields) (object others) with heq | hm
    · exact ⟨fields, heq⟩
    · generalize (object fields).add (object others) = c at hm
      cases hm with
      | same => exact ⟨_, rfl⟩
      | texts left => cases left
      | object => exact ⟨_, rfl⟩

/-- Shapes that show the same kinds on common paths merge, and what they merge to does so with any other
one of them. -/
theorem merge_of_agree {next : Shape} (hs : s.WellFormed) (hnext : next.WellFormed) (h : s.Agree next)
    (rest : ∀ t ∈ shapes, s.Agree t ∧ next.Agree t) :
    merge "" s next = .ok (s.add next) ∧ ∀ t ∈ shapes, (s.add next).Agree t := by
  obtain ⟨c, hc⟩ : ∃ c, merge "" s next = .ok c := exists_merge hs hnext h
  have hadd : s.add next = c := by rw [add, hc]; rfl
  refine ⟨hadd ▸ hc, fun t ht p k l hk hl => ?_⟩
  rcases (merged_of_merge (hadd ▸ hc)).shows hk with hk | hk
  · exact (rest t ht).1 p k l hk hl
  · exact (rest t ht).2 p k l hk hl

theorem covers_foldl_add (hs : s.WellFormed) (h : ∀ t ∈ shapes, t.WellFormed)
    (agree : (s :: shapes).Pairwise Agree) (hj : ∃ t ∈ s :: shapes, t.Covers j) :
    (shapes.foldl add s).Covers j := by
  induction shapes generalizing s with
  | nil =>
    obtain ⟨t, ht, hj⟩ := hj
    exact List.mem_singleton.1 ht ▸ hj
  | cons next shapes ih =>
    obtain ⟨hnext, h⟩ := List.forall_mem_cons.1 h
    obtain ⟨hfirst, hrest⟩ := List.pairwise_cons.1 agree
    obtain ⟨hfirst', hrest'⟩ := List.pairwise_cons.1 hrest
    obtain ⟨hmerge, hagree⟩ := merge_of_agree hs hnext (hfirst next (by simp)) fun t ht =>
      ⟨hfirst t (by simp [ht]), hfirst' t ht⟩
    have hm := merged_of_merge hmerge
    refine ih (hm.wellFormed hs hnext) h (List.pairwise_cons.2 ⟨hagree, hrest'⟩) ?_
    obtain ⟨t, ht, hj⟩ := hj
    rcases List.mem_cons.1 ht with rfl | ht
    · exact ⟨_, by simp, (hm.covers hs hnext).1 hj⟩
    · rcases List.mem_cons.1 ht with rfl | ht
      · exact ⟨_, by simp, (hm.covers hs hnext).2 hj⟩
      · exact ⟨t, by simp [ht], hj⟩

/-! ## Shapes of JSON values -/

theorem ofJson_ne_unknown (j : Json) : ofJson j ≠ unknown := by
  cases j with
  | string text =>
    intro h
    have := isText_ofText text
    rw [ofJson] at h
    rw [h] at this
    cases this
  | _ => simp [ofJson]

theorem wellFormed_ofElements (h : ∀ s ∈ shapes, s.WellFormed) : (ofElements shapes).WellFormed := by
  cases shapes with
  | nil => trivial
  | cons s shapes =>
    obtain ⟨hs, h⟩ := List.forall_mem_cons.1 h
    exact wellFormed_foldl_add hs h

theorem wellFormed_ofJson (h : j.Distinct) : (ofJson j).WellFormed := by
  induction j using Json.ind with
  | scalar j harray hobject =>
    cases j with
    | array => exact absurd rfl harray
    | object => exact absurd rfl hobject
    | string text =>
      have := isText_ofText text
      rw [ofJson]
      cases hs : ofText text <;> first | trivial | (rw [hs] at this; cases this)
    | _ => trivial
  | array items ih =>
    rw [ofJson, ofItems_eq]
    refine wellFormed_ofElements fun s hs => ?_
    obtain ⟨item, hitem, rfl⟩ := List.mem_map.1 hs
    exact ih item hitem (h.item hitem)
  | object fields ih =>
    rw [ofJson, ofFields_eq]
    refine ⟨by simpa [Function.comp_def] using h.nodup, areWellFormed_iff.2 fun f hf => ?_⟩
    obtain ⟨⟨name, value⟩, hmem, rfl⟩ := List.mem_map.1 hf
    exact ⟨ofJson_ne_unknown value, ih _ hmem (h.field hmem)⟩

theorem shows_text (hs : s.isText = true) (h : s.Shows path k) : path = [] ∧ k = .string := by
  cases h with
  | text => exact ⟨rfl, rfl⟩
  | _ => cases hs

theorem shows_ofElements (h : (ofElements shapes).Shows path k) : ∃ s ∈ shapes, s.Shows path k := by
  cases shapes with
  | nil =>
    cases h with
    | text h => cases h
  | cons s shapes => exact shows_foldl_add h

/-- A shape shows only kinds that the value has. -/
theorem shows_ofJson (h : (ofJson j).Shows path k) : ∃ x ∈ j.parts, x.1 = path ∧ x.2.kind? = some k := by
  induction j using Json.ind generalizing path with
  | scalar j harray hobject =>
    refine ⟨([], j), j.self_mem_parts, ?_⟩
    cases j with
    | array => exact absurd rfl harray
    | object => exact absurd rfl hobject
    | string text =>
      obtain ⟨rfl, rfl⟩ := shows_text (isText_ofText text) h
      exact ⟨rfl, rfl⟩
    | _ => cases h <;> first | exact ⟨rfl, rfl⟩ | contradiction
  | array items ih =>
    rw [ofJson, ofItems_eq] at h
    cases h with
    | text h => cases h
    | list => exact ⟨_, Json.self_mem_parts _, rfl, rfl⟩
    | element h =>
      obtain ⟨s, hs, hk⟩ := shows_ofElements h
      obtain ⟨item, hitem, rfl⟩ := List.mem_map.1 hs
      obtain ⟨x, hx, rfl, hkind⟩ := ih item hitem hk
      exact ⟨_, Json.mem_parts_array hitem hx, rfl, hkind⟩
  | object fields ih =>
    rw [ofJson] at h
    cases h with
    | text h => cases h
    | object => exact ⟨_, Json.self_mem_parts _, rfl, rfl⟩
    | @field _ name s path k lookup h =>
      rw [lookup_ofFields] at lookup
      obtain ⟨value, hvalue, rfl⟩ := Option.map_eq_some_iff.1 lookup
      have hf := mem_of_lookup hvalue
      obtain ⟨x, hx, rfl, hk⟩ := ih _ hf h
      exact ⟨_, Json.mem_parts_object hf hx, rfl, hk⟩

/-- The elements of an array with one kind on each path agree with one another. -/
theorem agree_of_uniform {items : List Json} (h : (Json.array items).Uniform) :
    (items.map ofJson).Pairwise Agree := by
  rw [List.pairwise_map]
  refine List.pairwise_of_forall_mem_list fun item hitem other hother path k l hk hl => ?_
  obtain ⟨x, hx, rfl, hkind⟩ := shows_ofJson hk
  obtain ⟨y, hy, heq, hkind'⟩ := shows_ofJson hl
  exact h (.element :: x.1, x.2) (Json.mem_parts_array hitem hx) (.element :: y.1, y.2)
    (Json.mem_parts_array hother hy) (congrArg (Step.element :: ·) heq.symm) k hkind l hkind'

theorem covers_ofElements {items : List Json} (distinct : (Json.array items).Distinct)
    (uniform : (Json.array items).Uniform)
    (h : ∀ item ∈ items, (ofJson item).Covers item) : ∀ item ∈ items, (ofElements (ofItems items)).Covers item := by
  intro item hitem
  have hwf : ∀ s ∈ items.map ofJson, s.WellFormed := by
    intro s hs
    obtain ⟨item, hitem, rfl⟩ := List.mem_map.1 hs
    exact wellFormed_ofJson (distinct.item hitem)
  have hagree := agree_of_uniform uniform
  have hcovered : ∃ s ∈ items.map ofJson, s.Covers item :=
    ⟨_, List.mem_map_of_mem hitem, h item hitem⟩
  rw [ofItems_eq]
  cases hshapes : items.map ofJson with
  | nil =>
    rw [hshapes] at hcovered
    simp at hcovered
  | cons s shapes =>
    rw [hshapes] at hwf hagree hcovered
    obtain ⟨hs, hwf⟩ := List.forall_mem_cons.1 hwf
    exact covers_foldl_add hs hwf hagree hcovered

/-- The shape of a value covers it. -/
theorem covers_ofJson (distinct : j.Distinct) (fits : j.Fits) (uniform : j.Uniform) :
    (ofJson j).Covers j := by
  induction j using Json.ind with
  | scalar j harray hobject =>
    have hfits := fits _ j.self_mem_parts
    cases j with
    | array => exact absurd rfl harray
    | object => exact absurd rfl hobject
    | null => exact .null rfl
    | bool => exact .bool
    | integer n => exact .integer hfits
    | double x => exact .decimal hfits
    | single x => cases hfits
    | string text => exact covers_ofText text
  | array items ih =>
    exact .list (covers_ofElements distinct uniform fun item hitem =>
      ih item hitem (distinct.item hitem) (fits.item hitem) (uniform.item hitem))
  | object fields ih =>
    rw [ofJson]
    refine .object (fun {name value} hv => ?_) (fun {name value s} hv hs => ?_)
      (fun {name s} hv hs => ?_)
    · rw [lookup_ofFields, hv]
      exact ⟨ofJson value, rfl⟩
    · rw [lookup_ofFields, hv] at hs
      cases hs
      have hf := mem_of_lookup hv
      exact ih _ hf (distinct.field hf) (fits.field hf) (uniform.field hf)
    · rw [lookup_ofFields, hv] at hs
      cases hs

end Parlance.Shape
