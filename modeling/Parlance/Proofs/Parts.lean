import Parlance.Json.Parse
import Parlance.Proofs.Decimals

/-!
# Parts of JSON values

Conditions on a JSON value are conditions on its parts (`Json.parts`), each of which is found on a path.
Whatever is read from a text has objects with distinct names only (`Json.distinct_of_parse?`).
-/

namespace Parlance

namespace Json

/-! ## Parts -/

/-- A step into a JSON value; it does not tell the elements of an array apart. -/
inductive Step where
  | element
  | field (name : String)
  deriving DecidableEq, Repr

/-- The kinds of JSON values other than null. -/
inductive Kind where
  | boolean | number | string | array | object
  deriving DecidableEq, Repr

/-- The kind of a value that is not null. -/
def kind? : Json → Option Kind
  | .null => none
  | .bool _ => some .boolean
  | .integer _ | .double _ | .single _ => some .number
  | .string _ => some .string
  | .array _ => some .array
  | .object _ => some .object

mutual

/-- A value and all values within it, each with the path that leads to it. -/
def parts : Json → List (List Step × Json)
  | .array items => ([], .array items) :: partsOfItems items
  | .object fields => ([], .object fields) :: partsOfFields fields
  | j => [([], j)]

/-- The parts of the elements of an array. -/
def partsOfItems : List Json → List (List Step × Json)
  | [] => []
  | item :: items => (parts item).map (fun (path, j) => (.element :: path, j)) ++ partsOfItems items

/-- The parts of the fields of an object. -/
def partsOfFields : List (String × Json) → List (List Step × Json)
  | [] => []
  | (name, value) :: fields =>
    (parts value).map (fun (path, j) => (.field name :: path, j)) ++ partsOfFields fields

end

/-- The names of the fields of an object. -/
def keys : Json → List String
  | .object fields => fields.map (·.1)
  | _ => []

/-- Whether a number is a whole one of 64 bits or a double that decimals reach up to. -/
def numberFits : Json → Bool
  | .integer n => NumericKind.long.holds n
  | .double x => Decimal.spans x
  | .single _ => false
  | _ => true

/-- No object has two fields of one name. -/
def Distinct (j : Json) : Prop := ∀ x ∈ j.parts, x.2.keys.Nodup

/-- All numbers fit. -/
def Fits (j : Json) : Prop := ∀ x ∈ j.parts, x.2.numberFits = true

/-- No path leads to values of different kinds, apart from null. -/
def Uniform (j : Json) : Prop :=
  ∀ x ∈ j.parts, ∀ y ∈ j.parts, x.1 = y.1 → ∀ k ∈ x.2.kind?, ∀ l ∈ y.2.kind?, k = l

instance (j : Json) : Decidable j.Distinct :=
  inferInstanceAs (Decidable (∀ x ∈ j.parts, x.2.keys.Nodup))

instance (j : Json) : Decidable j.Fits :=
  inferInstanceAs (Decidable (∀ x ∈ j.parts, x.2.numberFits = true))

instance (j : Json) : Decidable j.Uniform :=
  inferInstanceAs (Decidable
    (∀ x ∈ j.parts, ∀ y ∈ j.parts, x.1 = y.1 → ∀ k ∈ x.2.kind?, ∀ l ∈ y.2.kind?, k = l))

/-- Induction on values, by the elements of arrays and the fields of objects. -/
@[elab_as_elim]
theorem ind {motive : Json → Prop} (scalar : ∀ j, j.kind? ≠ some .array → j.kind? ≠ some .object → motive j)
    (array : ∀ items, (∀ item ∈ items, motive item) → motive (.array items))
    (object : ∀ fields, (∀ f ∈ fields, motive f.2) → motive (.object fields)) (j : Json) :
    motive j := by
  induction hn : sizeOf j using Nat.strongRecOn generalizing j with
  | ind n ih =>
  cases j with
  | array items =>
    refine array items fun item hitem => ih _ ?_ item rfl
    have := List.sizeOf_lt_of_mem hitem
    simp only [Json.array.sizeOf_spec] at hn
    omega
  | object fields =>
    refine object fields fun f hf => ih _ ?_ f.2 rfl
    have := List.sizeOf_lt_of_mem hf
    obtain ⟨name, value⟩ := f
    simp only [Json.object.sizeOf_spec, Prod.mk.sizeOf_spec] at hn this
    simp only
    omega
  | _ => exact scalar _ (by simp [kind?]) (by simp [kind?])

variable {j value : Json} {items : List Json} {fields : List (String × Json)} {name : String}
  {x : List Step × Json}

theorem self_mem_parts (j : Json) : ([], j) ∈ j.parts := by
  cases j <;> simp [parts]

theorem mem_partsOfItems : x ∈ partsOfItems items ↔
    ∃ item ∈ items, ∃ y ∈ item.parts, x = (.element :: y.1, y.2) := by
  induction items with
  | nil => simp [partsOfItems]
  | cons item items ih =>
    simp [partsOfItems, ih, eq_comm]

theorem mem_partsOfFields : x ∈ partsOfFields fields ↔
    ∃ f ∈ fields, ∃ y ∈ f.2.parts, x = (.field f.1 :: y.1, y.2) := by
  induction fields with
  | nil => simp [partsOfFields]
  | cons f fields ih =>
    simp [partsOfFields, ih, eq_comm]

theorem mem_parts_array (hv : value ∈ items) (hx : x ∈ value.parts) :
    (.element :: x.1, x.2) ∈ (array items).parts := by
  rw [parts]
  exact List.mem_cons_of_mem _ (mem_partsOfItems.2 ⟨value, hv, x, hx, rfl⟩)

theorem mem_parts_object (hf : (name, value) ∈ fields) (hx : x ∈ value.parts) :
    (.field name :: x.1, x.2) ∈ (object fields).parts := by
  rw [parts]
  exact List.mem_cons_of_mem _ (mem_partsOfFields.2 ⟨(name, value), hf, x, hx, rfl⟩)

theorem Distinct.item (h : (array items).Distinct) (hv : value ∈ items) : value.Distinct :=
  fun x hx => h (.element :: x.1, x.2) (mem_parts_array hv hx)

theorem Distinct.field (h : (object fields).Distinct) (hf : (name, value) ∈ fields) :
    value.Distinct :=
  fun x hx => h (.field name :: x.1, x.2) (mem_parts_object hf hx)

theorem Distinct.nodup (h : (object fields).Distinct) : (fields.map (·.1)).Nodup :=
  h _ (self_mem_parts _)

theorem Fits.item (h : (array items).Fits) (hv : value ∈ items) : value.Fits :=
  fun x hx => h (.element :: x.1, x.2) (mem_parts_array hv hx)

theorem Fits.field (h : (object fields).Fits) (hf : (name, value) ∈ fields) : value.Fits :=
  fun x hx => h (.field name :: x.1, x.2) (mem_parts_object hf hx)

theorem Uniform.item (h : (array items).Uniform) (hv : value ∈ items) : value.Uniform :=
  fun x hx y hy heq => h (.element :: x.1, x.2) (mem_parts_array hv hx) (.element :: y.1, y.2)
    (mem_parts_array hv hy) (congrArg (Step.element :: ·) heq)

theorem Uniform.field (h : (object fields).Uniform) (hf : (name, value) ∈ fields) : value.Uniform :=
  fun x hx y hy heq => h (.field name :: x.1, x.2) (mem_parts_object hf hx) (.field name :: y.1, y.2)
    (mem_parts_object hf hy) (congrArg (Step.field name :: ·) heq)

theorem distinct_array : (array items).Distinct ↔ ∀ item ∈ items, item.Distinct := by
  refine ⟨fun h item hitem => h.item hitem, fun h x hx => ?_⟩
  rw [parts, List.mem_cons, mem_partsOfItems] at hx
  rcases hx with rfl | ⟨item, hitem, y, hy, rfl⟩
  · exact .nil
  · exact h item hitem y hy

theorem distinct_object : (object fields).Distinct ↔
    (fields.map (·.1)).Nodup ∧ ∀ f ∈ fields, f.2.Distinct := by
  refine ⟨fun h => ⟨h.nodup, fun f hf => h.field hf⟩, fun ⟨hnodup, h⟩ x hx => ?_⟩
  rw [parts, List.mem_cons, mem_partsOfFields] at hx
  rcases hx with rfl | ⟨f, hf, y, hy, rfl⟩
  · exact hnodup
  · exact h f hf y hy

theorem distinct_of_kind? (harray : j.kind? ≠ some .array) (hobject : j.kind? ≠ some .object) :
    j.Distinct := by
  cases j with
  | array => exact absurd rfl harray
  | object => exact absurd rfl hobject
  | _ => simp [Distinct, parts, keys]

/-! ## Values read from texts -/

/-- What is read is a number. -/
def ReadsNumber (x : Option (Json × List Char)) : Prop :=
  ∀ j rest, x = some (j, rest) → j.kind? = some .number

theorem ReadsNumber.bind {α : Type} {x : Option α} {f : α → Option (Json × List Char)}
    (h : ∀ a, ReadsNumber (f a)) : ReadsNumber (x >>= f) := by
  intro j rest hx
  obtain ⟨a, -, ha⟩ := Option.bind_eq_some_iff.1 hx
  exact h a j rest ha

theorem ReadsNumber.map {α : Type} {x : Option α} {f : α → Json × List Char}
    (h : ∀ a, x = some a → (f a).1.kind? = some .number) : ReadsNumber (x.map f) := by
  intro j rest hx
  obtain ⟨a, ha, heq⟩ := Option.map_eq_some_iff.1 hx
  have := h a ha
  rwa [heq] at this

theorem kind?_of_ofWhole? {negative : Bool} {s : Significand} (h : ofWhole? negative s = some j) :
    j.kind? = some .number := by
  unfold ofWhole? at h
  split at h
  · cases h
    rfl
  · obtain ⟨x, -, rfl⟩ := Option.map_eq_some_iff.1 h
    rfl

theorem readsNumber_takeMagnitude? (negative : Bool) (cs : List Char) :
    ReadsNumber (takeMagnitude? negative cs) := by
  unfold takeMagnitude?
  dsimp only
  split
  · nofun
  · split
    on_goal 1 => split
    all_goals
      refine .bind fun (s, pointed, rest) => ?_
      split
      · split
        · exact .bind fun _ => .map fun _ _ => rfl
        · split
          · exact .map fun _ _ => rfl
          · exact .map fun _ h => kind?_of_ofWhole? h
      · split
        · exact .map fun _ _ => rfl
        · exact .map fun _ h => kind?_of_ofWhole? h

theorem kind?_of_takeNumeral? {cs rest : List Char} (h : takeNumeral? cs = some (j, rest)) :
    j.kind? = some .number := by
  unfold takeNumeral? at h
  split at h
  · exact readsNumber_takeMagnitude? _ _ j rest h
  · exact readsNumber_takeMagnitude? _ _ j rest h

theorem distinct_of_takeToken? {cs rest : List Char} (h : takeToken? cs = some (.value j, rest)) :
    j.Distinct := by
  unfold takeToken? at h
  split at h
  case h_7 =>
    obtain ⟨⟨cs, r⟩, -, h⟩ := Option.map_eq_some_iff.1 h
    cases h
    exact distinct_of_kind? (by simp [kind?]) (by simp [kind?])
  case h_11 =>
    obtain ⟨⟨j, r⟩, hj, h⟩ := Option.map_eq_some_iff.1 h
    cases h
    have hkind := kind?_of_takeNumeral? hj
    exact distinct_of_kind? (by simp [hkind]) (by simp [hkind])
  all_goals
    cases h
    try exact distinct_of_kind? (by simp [kind?]) (by simp [kind?])

/-- In an open object the names are in order, and all values within an open one are complete. -/
def Frame.Ordered : Frame → Prop
  | .array items => ∀ item ∈ items, item.Distinct
  | .object fields _ => (fields.map (·.1)).Pairwise (· < ·) ∧ ∀ f ∈ fields, f.2.Distinct

namespace Builder

/-- The open arrays and objects of a builder are in order, and its result is complete. -/
structure Ordered (b : Builder) : Prop where
  frames : ∀ f ∈ b.frames, f.Ordered
  result : ∀ j ∈ b.result, j.Distinct

theorem mem_insertField {f : String × Json} (h : f ∈ insertField name value fields) :
    f = (name, value) ∨ f ∈ fields := by
  induction fields with
  | nil => simpa [insertField] using h
  | cons first fields ih =>
    rw [insertField] at h
    split at h
    · exact List.mem_cons.1 h
    · split at h
      · rcases List.mem_cons.1 h with rfl | h
        · exact .inl rfl
        · exact .inr (List.mem_cons_of_mem _ h)
      · rcases List.mem_cons.1 h with rfl | h
        · exact .inr List.mem_cons_self
        · exact (ih h).imp_right (List.mem_cons_of_mem _)

theorem pairwise_insertField (h : (fields.map (·.1)).Pairwise (· < ·)) :
    ((insertField name value fields).map (·.1)).Pairwise (· < ·) := by
  rw [List.pairwise_map] at h ⊢
  induction fields with
  | nil => simp [insertField]
  | cons first fields ih =>
    obtain ⟨other, old⟩ := first
    obtain ⟨hfirst, hrest⟩ := List.pairwise_cons.1 h
    rw [insertField]
    split
    · rename_i hlt
      refine List.pairwise_cons.2 ⟨fun f hf => ?_, h⟩
      rcases List.mem_cons.1 hf with rfl | hf
      · exact hlt
      · exact String.lt_trans hlt (hfirst f hf)
    · split
      · rename_i heq
        subst heq
        exact List.pairwise_cons.2 ⟨hfirst, hrest⟩
      · rename_i hlt hne
        refine List.pairwise_cons.2 ⟨fun f hf => ?_, ih hrest⟩
        rcases mem_insertField hf with rfl | hf
        · exact Decidable.not_not.1 fun hgt => hne (String.le_antisymm (String.not_lt.1 hgt) (String.not_lt.1 hlt))
        · exact hfirst f hf

theorem ordered_complete {frames : List Frame} (hj : j.Distinct) (h : ∀ f ∈ frames, f.Ordered) :
    (complete j frames).Ordered := by
  cases frames with
  | nil => exact ⟨by simp [complete], by simpa [complete] using hj⟩
  | cons frame frames =>
    obtain ⟨hframe, hframes⟩ := List.forall_mem_cons.1 h
    cases frame with
    | array items =>
      exact ⟨List.forall_mem_cons.2 ⟨List.forall_mem_cons.2 ⟨hj, hframe⟩, hframes⟩, nofun⟩
    | object fields name =>
      refine ⟨List.forall_mem_cons.2 ⟨⟨pairwise_insertField hframe.1, fun f hf => ?_⟩, hframes⟩, nofun⟩
      rcases mem_insertField hf with rfl | hf
      · exact hj
      · exact hframe.2 f hf

theorem ordered_enter? {b c : Builder} {frame : Frame} {expected : Expected} (hb : b.Ordered)
    (hframe : frame.Ordered) (h : b.enter? frame expected = some c) : c.Ordered := by
  unfold enter? at h
  split at h <;> cases h
  exact ⟨List.forall_mem_cons.2 ⟨hframe, hb.frames⟩, nofun⟩

/-- Every token leaves the open arrays and objects in order. -/
theorem ordered_step? {b c : Builder} {token : Token} (hb : b.Ordered)
    (htoken : ∀ j, token = .value j → j.Distinct) (h : b.step? token = some c) : c.Ordered := by
  have hframes := hb.frames
  have harray : (Frame.array []).Ordered := by simp [Frame.Ordered]
  have hobject : (Frame.object [] "").Ordered := by simp [Frame.Ordered]
  unfold step? at h
  split at h
  case h_1 | h_2 => exact ordered_enter? hb harray h
  case h_3 | h_4 => exact ordered_enter? hb hobject h
  case h_5 | h_6 =>
    cases h
    exact ordered_complete (htoken _ rfl) hframes
  case h_8 =>
    cases h
    exact ⟨hframes, nofun⟩
  case h_15 => cases h
  -- an array or object is open, and the token goes on with it or closes it
  all_goals
    rename_i heq
    cases h
    rw [heq] at hframes
    obtain ⟨hframe, hrest⟩ := List.forall_mem_cons.1 hframes
  case h_7 | h_10 => exact ⟨List.forall_mem_cons.2 ⟨hframe, hrest⟩, nofun⟩
  case h_9 => exact ⟨hframes, nofun⟩
  case h_11 | h_12 =>
    exact ordered_complete (distinct_array.2 fun item hitem => hframe item (List.mem_reverse.1 hitem)) hrest
  case h_13 | h_14 =>
    have hnodup := hframe.1.imp fun {name other} (hlt : name < other) (heq : name = other) =>
      String.lt_irrefl name (heq ▸ hlt)
    exact ordered_complete (distinct_object.2 ⟨hnodup, hframe.2⟩) hrest

theorem ordered_foldlM {tokens : List Token} {b c : Builder} (hb : b.Ordered)
    (htokens : ∀ j, .value j ∈ tokens → j.Distinct) (h : tokens.foldlM step? b = some c) :
    c.Ordered := by
  induction tokens generalizing b with
  | nil =>
    cases h
    exact hb
  | cons token tokens ih =>
    rw [List.foldlM_cons] at h
    obtain ⟨next, hnext, h⟩ := Option.bind_eq_some_iff.1 h
    refine ih (ordered_step? hb (fun j hj => htokens j (by simp [hj])) hnext) ?_ h
    exact fun j hj => htokens j (List.mem_cons_of_mem _ hj)

end Builder

theorem distinct_of_tokensWithin? {fuel : Nat} {cs : List Char} {tokens : List Token}
    (h : tokensWithin? fuel cs = some tokens) : ∀ j, .value j ∈ tokens → j.Distinct := by
  induction fuel, cs using tokensWithin?.induct_unfolding generalizing tokens with
  | case1 =>
    cases h
    simp
  | case2 => cases h
  | case3 cs fuel _ ih =>
    obtain ⟨⟨token, rest⟩, htoken, h⟩ := Option.bind_eq_some_iff.1 h
    obtain ⟨tokens, htokens, h⟩ := Option.bind_eq_some_iff.1 h
    cases h
    intro j hj
    rcases List.mem_cons.1 hj with rfl | hj
    · exact distinct_of_takeToken? htoken
    · exact ih rest htokens j hj

/-- The objects of a value that is read from a text have distinct names. -/
theorem distinct_of_parse? {text : String} (h : parse? text = some j) : j.Distinct := by
  obtain ⟨tokens, htokens, h⟩ := Option.bind_eq_some_iff.1 h
  obtain ⟨b, hb, h⟩ := Option.bind_eq_some_iff.1 h
  have hstart : Builder.start.Ordered := ⟨nofun, nofun⟩
  exact (Builder.ordered_foldlM hstart (distinct_of_tokensWithin? htokens) hb).result j h

end Json

/-! ## Lookup -/

theorem mem_of_lookup {α : Type} {fields : List (String × α)} {name : String} {a : α}
    (h : fields.lookup name = some a) : (name, a) ∈ fields := by
  obtain ⟨before, after, rfl, -⟩ := List.lookup_eq_some_iff.1 h
  simp

theorem lookup_of_mem {α : Type} {fields : List (String × α)} {name : String} {a : α}
    (hnodup : (fields.map (·.1)).Nodup) (h : (name, a) ∈ fields) : fields.lookup name = some a := by
  induction fields with
  | nil => cases h
  | cons f fields ih =>
    obtain ⟨other, b⟩ := f
    rw [List.map_cons, List.nodup_cons] at hnodup
    rcases List.mem_cons.1 h with heq | hmem
    · cases heq
      exact List.lookup_cons_self
    · have hne : name ≠ other := by
        rintro rfl
        exact hnodup.1 (List.mem_map.2 ⟨_, hmem, rfl⟩)
      rw [List.lookup_cons, beq_false_of_ne hne]
      exact ih hnodup.2 hmem

end Parlance
