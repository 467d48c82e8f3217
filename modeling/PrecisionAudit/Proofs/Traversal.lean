import Mathlib.Data.List.Forall2

/-!
# Traversals that may fail

A list is walked from the left by a function that may have no answer. If it has one for every
element the walk is the plain one; otherwise the walk ends at the first element without an answer.

## Main results

- `exists_findSomeM?_eq_some`, `exists_allM_eq_some`: walks on which nothing fails.
- `findSome?_eq_some_iff_getElem?`: what is found is found at the first place that has something.
- `mapM_eq_ok_iff`, `mapM_eq_error_iff`: the outcomes of a walk, and the error with which it ends.
-/

namespace PrecisionAudit

variable {ε α β : Type}

/-! ## Sequences -/

/-- What a successful computation with a second part after the first consists of. -/
theorem exists_of_bind_eq_ok {x : Except ε α} {f : α → Except ε β} {b : β}
    (h : (x >>= f) = .ok b) : ∃ a, x = .ok a ∧ f a = .ok b := by
  cases x with
  | error error => cases h
  | ok a => exact ⟨a, rfl, h⟩

theorem bind_eq_ok_iff {x : Except ε α} {f : α → Except ε β} {b : β} :
    (x >>= f) = .ok b ↔ ∃ a, x = .ok a ∧ f a = .ok b := by
  constructor
  · exact exists_of_bind_eq_ok
  · rintro ⟨a, rfl, h⟩
    exact h

theorem bind_eq_error_iff {x : Except ε α} {f : α → Except ε β} {error : ε} :
    (x >>= f) = .error error ↔ x = .error error ∨ ∃ a, x = .ok a ∧ f a = .error error := by
  cases x with
  | error first => simp [bind, Except.bind]
  | ok a => simp [bind, Except.bind]

theorem map_eq_error_iff {x : Except ε α} {f : α → β} {error : ε} :
    x.map f = .error error ↔ x = .error error := by
  cases x with
  | error first => simp [Except.map]
  | ok a => simp [Except.map]

/-! ## Searches -/

/-- What is found is found at the first place that has something. -/
theorem findSome?_eq_some_iff_getElem? {f : α → Option β} {l : List α} {b : β} :
    l.findSome? f = some b ↔ ∃ (i : ℕ) (a : α), l[i]? = some a ∧ f a = some b ∧
      ∀ j < i, ∀ a', l[j]? = some a' → f a' = none := by
  induction l with
  | nil => simp
  | cons head tail ih =>
    rw [List.findSome?_cons]
    cases hhead : f head with
    | some found =>
      constructor
      · rintro ⟨⟩
        exact ⟨0, head, rfl, hhead, fun j hj => absurd hj (Nat.not_lt_zero j)⟩
      · rintro ⟨i, a, ha, hfound, hbefore⟩
        -- nothing later can be the first
        cases i with
        | zero =>
          cases ha
          exact hhead.symm.trans hfound
        | succ i =>
          rw [hbefore 0 (Nat.succ_pos i) head rfl] at hhead
          cases hhead
    | none =>
      refine ih.trans ⟨?_, ?_⟩
      · rintro ⟨i, a, ha, hfound, hbefore⟩
        refine ⟨i + 1, a, ha, hfound, fun j hj a' ha' => ?_⟩
        cases j with
        | zero =>
          cases ha'
          exact hhead
        | succ j => exact hbefore j (Nat.lt_of_succ_lt_succ hj) a' ha'
      · rintro ⟨i, a, ha, hfound, hbefore⟩
        cases i with
        | zero =>
          cases ha
          rw [hhead] at hfound
          cases hfound
        | succ i =>
          exact ⟨i, a, ha, hfound, fun j hj => hbefore (j + 1) (Nat.succ_lt_succ hj)⟩

/-- A search in which every question is answered is the plain search. -/
theorem findSomeM?_eq_some {f : α → Option (Option β)} {l : List α}
    (h : ∀ a ∈ l, (f a).isSome) : l.findSomeM? f = some (l.findSome? fun a => (f a).join) := by
  induction l with
  | nil => rfl
  | cons head tail ih =>
    obtain ⟨answer, hanswer⟩ := Option.isSome_iff_exists.1 (h head List.mem_cons_self)
    rw [List.findSomeM?_cons, List.findSome?_cons, hanswer]
    cases answer with
    | some found => rfl
    | none => exact ih fun a ha => h a (List.mem_cons_of_mem _ ha)

/-- A search in which every question is answered finds the first element that is wanted, and nothing if
none is. -/
theorem exists_findSomeM?_eq_some {f : α → Option (Option β)} {l : List α} {Wanted : α → Prop}
    {Found : α → β → Prop} (h : ∀ a ∈ l, ∃ o, f a = some o ∧ (o = none → ¬ Wanted a) ∧
      ∀ b, o = some b → Found a b) :
    ∃ o, l.findSomeM? f = some o ∧ (o = none → ∀ a ∈ l, ¬ Wanted a) ∧
      ∀ b, o = some b → ∃ (i : ℕ) (a : α), l[i]? = some a ∧ Found a b ∧
        ∀ j < i, ∀ a', l[j]? = some a' → ¬ Wanted a' := by
  have hsome : ∀ a ∈ l, (f a).isSome := by
    intro a ha
    obtain ⟨o, ho, -⟩ := h a ha
    rw [ho]
    rfl
  -- what the search passes by is not wanted
  have hpassed : ∀ a ∈ l, (f a).join = none → ¬ Wanted a := by
    intro a ha hjoin
    obtain ⟨o, ho, hnone, -⟩ := h a ha
    rw [ho] at hjoin
    exact hnone hjoin
  refine ⟨_, findSomeM?_eq_some hsome, ?_, ?_⟩
  · intro hnone a ha
    exact hpassed a ha (List.findSome?_eq_none_iff.1 hnone a ha)
  · intro b hb
    obtain ⟨i, a, ha, hfound, hbefore⟩ := findSome?_eq_some_iff_getElem?.1 hb
    obtain ⟨o, ho, -, hfits⟩ := h a (List.mem_of_getElem? ha)
    rw [ho] at hfound
    refine ⟨i, a, ha, hfits b hfound, fun j hj a' ha' => ?_⟩
    exact hpassed a' (List.mem_of_getElem? ha') (hbefore j hj a' ha')

/-- An element is found by its name if no earlier one has that name. -/
theorem find?_name_eq_some_iff {all : List α} {name : α → String}
    (hname : ∀ a, all.find? (name · == name a) = some a) {text : String} {a : α} :
    all.find? (name · == text) = some a ↔ name a = text := by
  constructor
  · intro h
    simpa using List.find?_some h
  · rintro rfl
    exact hname a

/-- A check in which every question is answered has a verdict, and it holds if every answer is yes. -/
theorem exists_allM_eq_some {f : α → Option Bool} {l : List α} (h : ∀ a ∈ l, (f a).isSome) :
    ∃ verdict, l.allM f = some verdict ∧ (verdict = true ↔ ∀ a ∈ l, f a = some true) := by
  induction l with
  | nil => exact ⟨true, rfl, by simp⟩
  | cons head tail ih =>
    obtain ⟨answer, hanswer⟩ := Option.isSome_iff_exists.1 (h head List.mem_cons_self)
    rw [List.allM_cons, hanswer]
    cases answer with
    | true =>
      obtain ⟨verdict, htail, hverdict⟩ := ih fun a ha => h a (List.mem_cons_of_mem _ ha)
      refine ⟨verdict, htail, ?_⟩
      rw [hverdict, List.forall_mem_cons, and_iff_right hanswer]
    | false =>
      refine ⟨false, rfl, ?_⟩
      rw [List.forall_mem_cons, hanswer]
      simp

theorem allM_congr {f g : α → Option Bool} {l : List α} (h : ∀ a ∈ l, f a = g a) :
    l.allM f = l.allM g := by
  induction l with
  | nil => rfl
  | cons head tail ih =>
    rw [List.allM_cons, List.allM_cons, h head List.mem_cons_self,
      ih fun a ha => h a (List.mem_cons_of_mem _ ha)]

theorem mapM_congr {f g : α → Option β} {l : List α} (h : ∀ a ∈ l, f a = g a) :
    l.mapM f = l.mapM g := by
  induction l with
  | nil => rfl
  | cons head tail ih =>
    rw [List.mapM_cons, List.mapM_cons, h head List.mem_cons_self,
      ih fun a ha => h a (List.mem_cons_of_mem _ ha)]

theorem isSome_bind {x : Option α} {f : α → Option β} (hx : x.isSome)
    (hf : ∀ a, x = some a → (f a).isSome) : (x >>= f).isSome := by
  obtain ⟨a, rfl⟩ := Option.isSome_iff_exists.1 hx
  exact hf a rfl

/-- A list of answers exists if every question is answered. -/
theorem isSome_mapM {f : α → Option β} {l : List α} (h : ∀ a ∈ l, (f a).isSome) :
    (l.mapM f).isSome := by
  induction l with
  | nil => rfl
  | cons head tail ih =>
    obtain ⟨b, hb⟩ := Option.isSome_iff_exists.1 (h head List.mem_cons_self)
    obtain ⟨bs, hbs⟩ := Option.isSome_iff_exists.1 (ih fun a ha => h a (List.mem_cons_of_mem _ ha))
    rw [List.mapM_cons, hb, hbs]
    rfl

/-! ## Walks with errors -/

theorem exists_forall₂_iff {R : α → β → Prop} {l : List α} :
    (∃ bs, List.Forall₂ R l bs) ↔ ∀ a ∈ l, ∃ b, R a b := by
  induction l with
  | nil => simp
  | cons head tail ih =>
    rw [List.forall_mem_cons, ← ih]
    constructor
    · rintro ⟨_, h⟩
      obtain ⟨b, bs, hhead, htail, -⟩ := List.forall₂_cons_left_iff.1 h
      exact ⟨⟨b, hhead⟩, bs, htail⟩
    · rintro ⟨⟨b, hhead⟩, bs, htail⟩
      exact ⟨b :: bs, .cons hhead htail⟩

/-- A walk succeeds with the outcomes of its elements, in their order. -/
theorem mapM_eq_ok_iff {f : α → Except ε β} {l : List α} {bs : List β} :
    l.mapM f = .ok bs ↔ List.Forall₂ (fun a b => f a = .ok b) l bs := by
  induction l generalizing bs with
  | nil =>
    rw [List.forall₂_nil_left_iff]
    exact ⟨fun h => (Except.ok.inj h).symm, fun h => h ▸ rfl⟩
  | cons head tail ih =>
    simp only [List.mapM_cons, bind_eq_ok_iff, List.forall₂_cons_left_iff, ih]
    constructor
    · rintro ⟨b, hb, rest, hrest, ⟨⟩⟩
      exact ⟨b, rest, hb, hrest, rfl⟩
    · rintro ⟨b, rest, hb, hrest, rfl⟩
      exact ⟨b, hb, rest, hrest, rfl⟩

/-- A walk fails with the error of the first element that has one. -/
theorem mapM_eq_error_iff {f : α → Except ε β} {l : List α} {error : ε} :
    l.mapM f = .error error ↔ ∃ before a after, l = before ++ a :: after ∧
      (∀ d ∈ before, ∃ b, f d = .ok b) ∧ f a = .error error := by
  induction l with
  | nil =>
    constructor
    · intro h
      cases h
    · rintro ⟨before, a, after, h, -⟩
      cases before <;> cases h
  | cons head tail ih =>
    rw [List.mapM_cons, bind_eq_error_iff]
    constructor
    · rintro (hhead | ⟨b, hb, htail⟩)
      · exact ⟨[], head, tail, rfl, by simp, hhead⟩
      · rw [bind_eq_error_iff, ih] at htail
        rcases htail with ⟨before, a, after, rfl, hbefore, ha⟩ | ⟨rest, -, h⟩
        · exact ⟨head :: before, a, after, rfl, List.forall_mem_cons.2 ⟨⟨b, hb⟩, hbefore⟩, ha⟩
        · cases h
    · rintro ⟨before, a, after, hl, hbefore, ha⟩
      cases before with
      | nil =>
        cases hl
        exact .inl ha
      | cons first before =>
        -- the elements before the error start with the head, which succeeds
        cases hl
        obtain ⟨⟨b, hb⟩, hrest⟩ := List.forall_mem_cons.1 hbefore
        exact .inr ⟨b, hb, bind_eq_error_iff.2 (.inl (ih.2 ⟨before, a, after, rfl, hrest, ha⟩))⟩

end PrecisionAudit
