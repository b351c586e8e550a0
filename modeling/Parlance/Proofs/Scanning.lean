import Parlance.Proofs.Syntax

/-!
# The tokens of a text

Matching only ever goes on from one place of a text to the next (`Cursor.Reaches`), and a token takes
at least one character. So the tokens of a text are not empty and follow one another
(`Scanner.ordered_scan`).
-/

namespace Parlance

namespace Pattern

/-! ## Places -/

/-- A place is met when one goes on from another one, character by character. -/
inductive Cursor.Reaches (c : Cursor) : Cursor → Prop
  | refl : Reaches c c
  | next {d d' : Cursor} {x : Char} (reaches : Reaches c d) (next_eq : d.next? = some (x, d')) :
      Reaches c d'

namespace Cursor

variable {c d e : Cursor}

theorem next?_eq_some {x : Char} (h : c.next? = some (x, d)) :
    c.rest = x :: d.rest ∧ d.offset = c.offset + x.utf8Size ∧ c.remaining = d.remaining + 1 := by
  have hlength := c.remaining_eq
  unfold next? at h
  split at h
  · cases h
  · rename_i rest heq
    cases h
    refine ⟨heq, rfl, ?_⟩
    rw [heq, List.length_cons] at hlength
    simp only
    omega

namespace Reaches

theorem trans (h : c.Reaches d) (h' : d.Reaches e) : c.Reaches e := by
  induction h' with
  | refl => exact h
  | next _ next_eq ih => exact ih.next next_eq

theorem le (h : c.Reaches d) : c.offset ≤ d.offset := by
  induction h with
  | refl => exact Nat.le_refl _
  | next _ next_eq ih =>
    have := (next?_eq_some next_eq).2.1
    omega

/-- The text from a place on is as long wherever it is cut. -/
theorem offset_add_byteLength (h : c.Reaches d) :
    d.offset + Text.byteLength d.rest = c.offset + Text.byteLength c.rest := by
  induction h with
  | refl => rfl
  | next _ next_eq ih =>
    obtain ⟨hrest, hoffset, -⟩ := next?_eq_some next_eq
    rw [← ih, hrest, Text.byteLength]
    omega

theorem lt (h : c.Reaches d) (hlt : d.remaining < c.remaining) : c.offset < d.offset := by
  cases h with
  | refl => omega
  | next reaches next_eq =>
    rename_i x
    have := reaches.le
    have := (next?_eq_some next_eq).2.1
    have := x.utf8Size_pos
    omega

theorem eq_of_offset_le (h : c.Reaches d) (hle : d.offset ≤ c.offset) : d = c := by
  cases h with
  | refl => rfl
  | next reaches next_eq =>
    rename_i x
    have := reaches.le
    have := (next?_eq_some next_eq).2.1
    have := x.utf8Size_pos
    omega

end Reaches

theorem reaches_of_pass? {set : CharSet} (h : c.pass? set = some d) : c.Reaches d := by
  unfold pass? at h
  split at h
  · rename_i x d' hnext
    split at h
    · cases h
      exact Reaches.refl.next hnext
    · cases h
  · cases h

end Cursor

/-! ## Repetitions -/

/-- A predicate on places that is kept when one goes on. -/
def Onward (P : Cursor → Prop) : Prop := ∀ {c d : Cursor} {x : Char}, P c → c.next? = some (x, d) → P d

theorem Onward.reaches {P : Cursor → Prop} (hP : Onward P) {c d : Cursor} (hc : P c)
    (h : c.Reaches d) : P d := by
  induction h with
  | refl => exact hc
  | next _ next_eq ih => exact hP ih next_eq

theorem mem_newPlaces {m : Marks} {cs : List Cursor} {d : Cursor} (h : d ∈ newPlaces m cs) :
    d ∈ cs := by
  induction cs generalizing m with
  | nil => exact h
  | cons c cs ih =>
    rw [newPlaces] at h
    split at h
    · exact List.mem_cons_of_mem c (ih h)
    · rcases List.mem_cons.1 h with rfl | h
      · exact List.mem_cons_self
      · exact List.mem_cons_of_mem c (ih h)

theorem mem_newStages {going ended : Marks} {stages : List Stage} {s : Stage}
    (h : s ∈ newStages going ended stages) : s ∈ stages := by
  induction stages generalizing going ended with
  | nil => exact h
  | cons first stages ih =>
    cases first <;> rw [newStages] at h <;> split at h
    · exact List.mem_cons_of_mem _ (ih h)
    · rcases List.mem_cons.1 h with rfl | h
      · exact List.mem_cons_self
      · exact List.mem_cons_of_mem _ (ih h)
    · exact List.mem_cons_of_mem _ (ih h)
    · rcases List.mem_cons.1 h with rfl | h
      · exact List.mem_cons_self
      · exact List.mem_cons_of_mem _ (ih h)

section Steps

variable {P : Cursor → Prop}

theorem exactly_all {step : List Cursor → List Cursor}
    (hstep : ∀ cs, (∀ c ∈ cs, P c) → ∀ d ∈ step cs, P d) (n : Nat) {cs : List Cursor}
    (h : ∀ c ∈ cs, P c) : ∀ d ∈ exactly step n cs, P d := by
  induction n generalizing cs with
  | zero => exact h
  | succ n ih =>
    rw [exactly]
    split
    · simp
    · exact ih (hstep cs h)

theorem atMost_all {greedy : Bool} {step : List Cursor → List Cursor}
    (hstep : ∀ cs, (∀ c ∈ cs, P c) → ∀ d ∈ step cs, P d) (n : Nat) {stages : List Stage}
    (h : ∀ s ∈ stages, P s.place) : ∀ s ∈ atMost greedy step n stages, P s.place := by
  induction n generalizing stages with
  | zero => exact h
  | succ n ih =>
    rw [atMost]
    split
    · exact h
    · refine ih fun s hs => ?_
      obtain ⟨s', hs', hs⟩ := List.mem_flatMap.1 (mem_newStages hs)
      have hplace := h s' hs'
      cases s' with
      | ended c =>
        obtain rfl := List.mem_singleton.1 hs
        exact hplace
      | going c =>
        have hmore : ∀ s ∈ (step [c]).map Stage.going, P s.place := by
          intro s hs
          obtain ⟨d, hd, rfl⟩ := List.mem_map.1 hs
          exact hstep [c] (List.forall_mem_singleton.2 hplace) d hd
        rw [Stage.advance] at hs
        split at hs
        · rcases List.mem_append.1 hs with hs | hs
          · exact hmore s hs
          · obtain rfl := List.mem_singleton.1 hs
            exact hplace
        · rcases List.mem_cons.1 hs with rfl | hs
          · exact hplace
          · exact hmore s hs

theorem further_all {greedy : Bool} {step : Cursor → List Cursor}
    (hstep : ∀ c, P c → ∀ d ∈ step c, P d) (c : Cursor) (hc : P c) (p : Progress)
    (hp : ∀ d ∈ p.ends, P d) : ∀ d ∈ (further greedy step p c).ends, P d := by
  induction hn : c.remaining using Nat.strong_induction_on generalizing c p with
  | _ n ih =>
    have hfold (ds : List Cursor) (hds : ∀ d ∈ ds, P d) (p : Progress) (hp : ∀ d ∈ p.ends, P d) :
        ∀ d ∈ (ds.foldl (fun p d =>
          if _h : d.remaining < c.remaining then further greedy step p d else p) p).ends, P d := by
      induction ds generalizing p with
      | nil => exact hp
      | cons d ds ihd =>
        rw [List.foldl_cons]
        refine ihd (fun d hd => hds d (List.mem_cons_of_mem _ hd)) _ ?_
        split
        · rename_i hlt
          exact ih d.remaining (hn ▸ hlt) d (hds d List.mem_cons_self) p hp rfl
        · exact hp
    unfold further
    split
    · exact hp
    · dsimp only
      split
      · exact List.forall_mem_cons.2
          ⟨hc, hfold (step c) (hstep c hc) ⟨Marks.add p.met c, p.ends⟩ hp⟩
      · exact hfold (step c) (hstep c hc) ⟨Marks.add p.met c, c :: p.ends⟩
          (List.forall_mem_cons.2 ⟨hc, hp⟩)

theorem stretch_all (hP : Onward P) {set : CharSet} {met : Marks} (c : Cursor) (hc : P c)
    {passed : List Cursor} (h : ∀ d ∈ passed, P d) : ∀ d ∈ stretch set met passed c, P d := by
  induction hn : c.remaining using Nat.strong_induction_on generalizing c passed with
  | _ n ih =>
    have hcons := List.forall_mem_cons.2 ⟨hc, h⟩
    unfold stretch
    split
    · exact h
    split
    · rename_i x d hnext
      split
      · exact ih d.remaining (hn ▸ Cursor.next?_remaining hnext) d (hP hc hnext) hcons rfl
      · exact hcons
    · exact hcons

theorem furtherOf_all (hP : Onward P) {greedy : Bool} {set : CharSet} (c : Cursor) (hc : P c)
    {p : Progress} (hp : ∀ d ∈ p.ends, P d) : ∀ d ∈ (furtherOf greedy set p c).ends, P d := by
  have hstretch : ∀ d ∈ stretch set p.met [] c, P d := stretch_all hP c hc (by simp)
  unfold furtherOf
  split
  · exact hp
  · rename_i heq
    rw [heq] at hstretch
    dsimp only
    split
    · intro d hd
      rcases List.mem_append.1 hd with hd | hd
      · exact hstretch d (List.mem_reverse.1 hd)
      · exact hp d hd
    · intro d hd
      rcases List.mem_append.1 hd with hd | hd
      · exact hstretch d hd
      · exact hp d hd

theorem foldl_all {f : Progress → Cursor → Progress}
    (hf : ∀ c, P c → ∀ p : Progress, (∀ d ∈ p.ends, P d) → ∀ d ∈ (f p c).ends, P d)
    {cs : List Cursor} (h : ∀ c ∈ cs, P c) {p : Progress} (hp : ∀ d ∈ p.ends, P d) :
    ∀ d ∈ (cs.foldl f p).ends, P d := by
  induction cs generalizing p with
  | nil => exact hp
  | cons c cs ih =>
    exact ih (fun c hc => h c (List.mem_cons_of_mem _ hc)) (hf c (h c List.mem_cons_self) p hp)

/-! ## Matches -/

theorem ends_all (hP : Onward P) (p : Pattern) {cs : List Cursor} (h : ∀ c ∈ cs, P c) :
    ∀ d ∈ p.ends cs, P d := by
  induction p generalizing cs with
  | empty => simpa [ends] using h
  | one set =>
    intro d hd
    rw [ends] at hd
    obtain ⟨c, hc, hpass⟩ := List.mem_filterMap.1 hd
    exact hP.reaches (h c hc) (Cursor.reaches_of_pass? hpass)
  | look l =>
    intro d hd
    rw [ends] at hd
    exact h d (List.mem_filter.1 hd).1
  | seq first second ih₁ ih₂ =>
    rw [ends]
    exact ih₂ (ih₁ h)
  | alt first second ih₁ ih₂ =>
    intro d hd
    rw [ends] at hd
    obtain ⟨c, hc, hd⟩ := List.mem_flatMap.1 (mem_newPlaces hd)
    have hc' : ∀ d ∈ [c], P d := by simpa using h c hc
    rcases List.mem_append.1 hd with hd | hd
    · exact ih₁ hc' d hd
    · exact ih₂ hc' d hd
  | group name body ih =>
    rw [ends]
    exact ih h
  | times body least most greedy ih =>
    have hstarts : ∀ d ∈ exactly body.ends least cs, P d := exactly_all (fun cs h => ih h) least h
    cases most with
    | some most =>
      intro d hd
      rw [ends] at hd
      obtain ⟨s, hs, rfl⟩ := List.mem_map.1 (mem_newPlaces hd)
      refine atMost_all (fun cs h => ih h) (most - least) (fun s hs => ?_) s hs
      obtain ⟨c, hc, rfl⟩ := List.mem_map.1 hs
      exact hstarts c hc
    | none =>
      intro d hd
      unfold ends at hd
      rw [List.mem_reverse] at hd
      split at hd
      · exact foldl_all (fun c hc p hp => furtherOf_all hP c hc hp) hstarts (by simp) d hd
      · exact foldl_all (fun c hc p hp => further_all (fun c hc => ih (by simpa using hc)) c hc p hp)
          hstarts (by simp) d hd

end Steps

theorem ends_nil (p : Pattern) : p.ends [] = [] := by
  have hfalse : Onward fun _ => False := fun h _ => h
  exact List.eq_nil_iff_forall_not_mem.2 (ends_all hfalse p (by simp))

theorem Automaton.run_some {P : Cursor → Prop} (hP : Onward P) {a : Automaton} (c : Cursor)
    (hc : P c) {agenda : List Nat} {best : Option Cursor} (hbest : ∀ d ∈ best, P d) :
    ∀ d ∈ a.run agenda best c, P d := by
  induction hn : c.remaining using Nat.strong_induction_on generalizing c agenda best with
  | _ n ih =>
    have hbest' (ways : List Nat) : ∀ d ∈ (if ways.any a.isDone then some c else best), P d := by
      split
      · intro d hd
        cases hd
        exact hc
      · exact hbest
    unfold run
    dsimp only
    split
    · rename_i x d hnext
      split
      · exact hbest' _
      · exact ih d.remaining (hn ▸ Cursor.next?_remaining hnext) d (hP hc hnext) (hbest' _) rfl
    · exact hbest' _

theorem Matcher.reaches_of_match? {m : Matcher} {c d : Cursor} (h : m.match? c = some d) :
    c.Reaches d := by
  have hP : Onward c.Reaches := fun hc hnext => hc.next hnext
  cases m with
  | listing p =>
    exact ends_all hP p (List.forall_mem_singleton.2 .refl) d (List.mem_of_mem_head? h)
  | automaton a => exact Automaton.run_some hP c .refl (by simp) d h

end Pattern

/-! ## Tokens -/

namespace Scanner

open Pattern

variable {s : Scanner} {c d : Cursor} {m : Match}

theorem reaches_of_firstMatch? {branches : List Branch} (h : firstMatch? c branches = some m) :
    c.Reaches m.stop := by
  induction branches with
  | nil => cases h
  | cons branch branches ih =>
    rw [firstMatch?] at h
    split at h
    · rename_i stop hstop
      cases h
      exact Matcher.reaches_of_match? hstop
    · exact ih h

theorem reaches_of_firstLongMatch? {branches : List Branch}
    (h : firstLongMatch? c branches = some m) : c.Reaches m.stop := by
  induction branches with
  | nil => cases h
  | cons branch branches ih =>
    rw [firstLongMatch?] at h
    split at h
    · rename_i stop hstop
      split at h
      · exact ih h
      · cases h
        exact Matcher.reaches_of_match? hstop
    · exact ih h

theorem reaches_of_matchAt? (h : s.matchAt? c = some m) : c.Reaches m.stop := by
  unfold matchAt? at h
  split at h
  · cases h
  · rename_i m' hm'
    split at h
    · exact reaches_of_firstLongMatch? h
    · cases h
      exact reaches_of_firstMatch? hm'

theorem reaches_of_search? (h : s.search? c = some (d, m)) : c.Reaches d ∧ d.Reaches m.stop := by
  induction hn : c.remaining using Nat.strong_induction_on generalizing c with
  | _ n ih =>
    unfold search? at h
    split at h
    · rename_i m' hm'
      cases h
      exact ⟨.refl, reaches_of_matchAt? hm'⟩
    · split at h
      · rename_i x c' hnext
        obtain ⟨hc, hm⟩ := ih c'.remaining (hn ▸ Cursor.next?_remaining hnext) h rfl
        exact ⟨(Cursor.Reaches.refl.next hnext).trans hc, hm⟩
      · cases h

theorem ordered_scanFrom (s : Scanner) (c : Cursor) :
    Ordered c.offset (s.scanFrom c).tokens (c.offset + Text.byteLength c.rest) := by
  induction hn : c.remaining using Nat.strong_induction_on generalizing c with
  | _ n ih =>
    unfold scanFrom
    split
    · exact Nat.le_add_right _ _
    · rename_i start m hsearch
      split
      · exact Nat.le_add_right _ _
      · rename_i hoffset
        obtain ⟨hstart, hstop⟩ := reaches_of_search? hsearch
        obtain rfl := hstart.eq_of_offset_le (Nat.le_of_not_lt hoffset)
        split
        · rename_i hlt
          have hrest := ih m.stop.remaining (hn ▸ hlt) m.stop rfl
          rw [hstop.offset_add_byteLength] at hrest
          dsimp only
          split
          · exact hrest.mono hstop.le le_rfl
          · exact ⟨le_rfl, hstop.lt hlt, hrest⟩
        · exact Nat.le_add_right _ _

/-- The tokens of a text are not empty and follow one another. -/
theorem ordered_scan (s : Scanner) (text : String) :
    Ordered 0 (s.scan text).tokens (Text.byteLength text.toList) := by
  have h := ordered_scanFrom s (.start text)
  rwa [show (Cursor.start text).offset = 0 from rfl, Nat.zero_add] at h

end Scanner

end Parlance
