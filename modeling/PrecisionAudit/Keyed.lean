/-!
# Association lists

Values under keys, in the order in which the keys were first set.

* `Keyed.get?_set`, `Keyed.get?_erase`, `Keyed.get?_append`: what a look-up finds after each operation.
* `Keyed.eq_some_of_get?_add`, `Keyed.eq_some_of_get?_set`, `Keyed.eq_some_of_get?_erase`: where a value that is found
  comes from.
* `Keyed.keys_set`: a key that is set again stays where it is.
-/

namespace PrecisionAudit

/-- Values under keys; each key is listed once. -/
abbrev Keyed (κ α : Type) := List (κ × α)

namespace Keyed

variable {κ α : Type} [DecidableEq κ]

/-- Replaces the value of a key where it stands, or adds the key at the end. -/
def set (key : κ) (value : α) : Keyed κ α → Keyed κ α
  | [] => [(key, value)]
  | (k, old) :: rest => if k = key then (k, value) :: rest else (k, old) :: set key value rest

/-- The value of a key. -/
def get? (entries : Keyed κ α) (key : κ) : Option α :=
  match entries with
  | [] => none
  | (k, value) :: rest => if k = key then some value else get? rest key

/-- Removes a key. -/
def erase (entries : Keyed κ α) (key : κ) : Keyed κ α := entries.filter (·.1 ≠ key)

/-- The keys in order. -/
def keys (entries : Keyed κ α) : List κ := entries.map (·.1)

/-! ## Look-ups -/

@[simp] theorem get?_nil (key : κ) : get? ([] : Keyed κ α) key = none := rfl

theorem get?_cons (k : κ) (value : α) (rest : Keyed κ α) (key : κ) :
    get? ((k, value) :: rest) key = if k = key then some value else get? rest key := rfl

/-- Setting a key changes the value of that key and of no other. -/
theorem get?_set (entries : Keyed κ α) (key : κ) (value : α) (other : κ) :
    get? (set key value entries) other = if key = other then some value else get? entries other := by
  induction entries with
  | nil => simp [set, get?_cons]
  | cons entry rest ih =>
    obtain ⟨k, old⟩ := entry
    by_cases hk : k = key
    · subst hk
      by_cases h : k = other <;> simp [set, get?_cons, h]
    · by_cases h : k = other
      · subst h
        simp [set, get?_cons, hk, Ne.symm hk]
      · simp [set, get?_cons, hk, h, ih]

/-- A removed key has no value, and every other key keeps its own. -/
theorem get?_erase (entries : Keyed κ α) (key other : κ) :
    get? (entries.erase key) other = if key = other then none else get? entries other := by
  induction entries with
  | nil => simp [erase]
  | cons entry rest ih =>
    obtain ⟨k, value⟩ := entry
    unfold erase at ih ⊢
    by_cases hk : k = key
    · subst hk
      by_cases h : k = other
      · simpa [h] using ih
      · simpa [get?_cons, h] using ih
    · by_cases h : k = other
      · subst h
        simp [get?_cons, hk, Ne.symm hk]
      · simpa [get?_cons, hk, h] using ih

/-- The front entries come first. -/
theorem get?_append (front back : Keyed κ α) (key : κ) :
    get? (front ++ back) key = (get? front key).or (get? back key) := by
  induction front with
  | nil => rfl
  | cons entry rest ih =>
    obtain ⟨k, value⟩ := entry
    by_cases h : k = key
    · simp [get?_cons, h]
    · simpa [get?_cons, h] using ih

/-- What is found after a key is added was there before or is new. -/
theorem eq_some_of_get?_add {entries : Keyed κ α} {key other : κ} {value found : α}
    (h : get? (entries ++ [(key, value)]) other = some found) :
    get? entries other = some found ∨ key = other ∧ value = found := by
  rw [get?_append, Option.or_eq_some_iff] at h
  rcases h with h | ⟨-, h⟩
  · exact .inl h
  · by_cases hkey : key = other
    · rw [get?_cons, if_pos hkey] at h
      exact .inr ⟨hkey, Option.some.inj h⟩
    · rw [get?_cons, if_neg hkey] at h
      cases h

/-- What is found after a key is set was there before or is new. -/
theorem eq_some_of_get?_set {entries : Keyed κ α} {key other : κ} {value found : α}
    (h : get? (set key value entries) other = some found) :
    get? entries other = some found ∨ key = other ∧ value = found := by
  by_cases hkey : key = other
  · rw [get?_set, if_pos hkey] at h
    exact .inr ⟨hkey, Option.some.inj h⟩
  · rw [get?_set, if_neg hkey] at h
    exact .inl h

/-- What is found after a key is removed was there before, under another key. -/
theorem eq_some_of_get?_erase {entries : Keyed κ α} {key other : κ} {found : α}
    (h : get? (entries.erase key) other = some found) : get? entries other = some found ∧ key ≠ other := by
  by_cases hkey : key = other
  · rw [get?_erase, if_pos hkey] at h
    cases h
  · rw [get?_erase, if_neg hkey] at h
    exact ⟨h, hkey⟩

/-- A key has a value when it is listed. -/
theorem isSome_get?_iff (entries : Keyed κ α) (key : κ) : (get? entries key).isSome ↔ key ∈ entries.keys := by
  induction entries with
  | nil => simp [keys]
  | cons entry rest ih =>
    obtain ⟨k, value⟩ := entry
    unfold keys at ih ⊢
    by_cases h : k = key
    · simp [get?_cons, h]
    · simpa [get?_cons, h, Ne.symm h] using ih

/-- Setting a listed key leaves the keys as they are; any other key is added at the end. -/
theorem keys_set (entries : Keyed κ α) (key : κ) (value : α) :
    (set key value entries).keys = if key ∈ entries.keys then entries.keys else entries.keys ++ [key] := by
  induction entries with
  | nil => simp [set, keys]
  | cons entry rest ih =>
    obtain ⟨k, old⟩ := entry
    unfold keys at ih ⊢
    by_cases hk : k = key
    · simp [set, hk]
    · by_cases h : key ∈ List.map (·.1) rest
      · simpa [set, hk, h, Ne.symm hk] using ih
      · simpa [set, hk, h, Ne.symm hk] using ih

end Keyed

end PrecisionAudit
