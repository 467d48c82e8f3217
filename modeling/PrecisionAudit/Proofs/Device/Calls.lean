import Mathlib.Data.List.Basic
import PrecisionAudit.Device.Kernel
import PrecisionAudit.Proofs.Traversal

/-!
# Calls of a kernel body

A body is a tree of accesses; a run of it is a list of calls, each with the outcome that the body was
given. A call reaches at most one buffer, and only a write that succeeds changes it.

## Main results

- `Access.run_putElements`: a single write either fails and changes nothing, or replaces the bytes of
  the buffer that is bound.
- `Access.agreeOutside_run`: a body keeps the numbers and lengths of the buffers, and all buffers that
  are not bound.
- `Access.error?_of_mem_calls`: a body that reaches for a buffer that is not there is told so.
-/

namespace PrecisionAudit

/-- Elements are encoded unless they are too many for the memory. -/
theorem Element.encode_eq_ok {e : Element} {words : List e.Word} {bytes : List UInt8}
    (h : e.encode words = .ok bytes) : bytes = words.flatMap e.bytes := by
  obtain ⟨_, _, hbytes⟩ := exists_of_bind_eq_ok h
  cases hbytes
  rfl

/-! ## Buffers that are bound -/

def Binding.Binds (b : Binding) (id : Nat) : Prop := ∃ index, b.buffer index = .ok id

theorem Binding.buffer_eq_ok_iff (b : Binding) (index id : Nat) :
    b.buffer index = .ok id ↔ ∃ handle, b.arguments[index]? = some (.buffer handle) ∧ handle.id = id := by
  unfold buffer argument
  cases h : b.arguments[index]? with
  | none => simp [bind, Except.bind]
  | some argument =>
    cases argument with
    | buffer handle => simp [bind, Except.bind, pure, Except.pure]
    | _ => simp [bind, Except.bind, throw, throwThe, MonadExceptOf.throw]

namespace Buffers

/-- Two stores hold buffers of the same numbers and lengths, and the same bytes in all but some of them. -/
structure AgreeOutside (changeable : Nat → Prop) (before after : Buffers) : Prop where
  keys : after.keys = before.keys
  lengths : ∀ id, (after.get? id).map List.length = (before.get? id).map List.length
  others : ∀ id, ¬ changeable id → after.get? id = before.get? id

variable {changeable : Nat → Prop} {before middle after : Buffers}

theorem AgreeOutside.refl (changeable : Nat → Prop) (buffers : Buffers) :
    AgreeOutside changeable buffers buffers :=
  ⟨rfl, fun _ => rfl, fun _ _ => rfl⟩

theorem AgreeOutside.trans (first : AgreeOutside changeable before middle)
    (second : AgreeOutside changeable middle after) : AgreeOutside changeable before after :=
  ⟨second.keys.trans first.keys, fun id => (second.lengths id).trans (first.lengths id),
    fun id hid => (second.others id hid).trans (first.others id hid)⟩

theorem AgreeOutside.mono {wider : Nat → Prop} (h : AgreeOutside changeable before after)
    (hwider : ∀ id, changeable id → wider id) : AgreeOutside wider before after :=
  ⟨h.keys, h.lengths, fun id hid => h.others id fun hchangeable => hid (hwider id hchangeable)⟩

/-- Bytes of the same length in the place of the old ones disturb nothing else. -/
theorem agreeOutside_set {id : Nat} {old new : List UInt8} (hfound : before.get? id = some old)
    (hlength : new.length = old.length) (hchangeable : changeable id) :
    AgreeOutside changeable before (Keyed.set id new before) := by
  constructor
  case keys =>
    have hmem : id ∈ before.keys := by
      rw [← Keyed.isSome_get?_iff, hfound]
      rfl
    rw [Keyed.keys_set, if_pos hmem]
  case lengths =>
    intro other
    rw [Keyed.get?_set]
    split
    case isTrue heq =>
      subst heq
      simp only [hfound, Option.map_some, hlength]
    case isFalse => rfl
  case others =>
    intro other hother
    rw [Keyed.get?_set, if_neg]
    rintro rfl
    exact hother hchangeable

theorem get?_of_bytes_eq_ok {id : Nat} {old : List UInt8} (h : before.bytes id = .ok old) :
    before.get? id = some old := by
  unfold bytes at h
  split at h
  case h_1 hfound =>
    cases h
    exact hfound
  case h_2 => cases h

theorem eq_of_replace_eq_ok {id : Nat} {old new : List UInt8} (h : before.replace id old new = .ok after) :
    new.length = old.length ∧ after = Keyed.set id new before := by
  unfold replace at h
  split at h
  case isTrue => cases h
  case isFalse hlength =>
    cases h
    exact ⟨not_not.1 hlength, rfl⟩

/-- What a write at a position does when it succeeds. -/
theorem exists_of_writeAt_eq_ok {b : Binding} {index : Nat} {e : Element} {words : List e.Word}
    (h : before.writeAt b index e words = .ok after) :
    ∃ id old, b.buffer index = .ok id ∧ before.get? id = some old ∧
      (words.flatMap e.bytes).length = old.length ∧
      after = Keyed.set id (words.flatMap e.bytes) before := by
  obtain ⟨id, hid, h⟩ := exists_of_bind_eq_ok h
  obtain ⟨old, hold, h⟩ := exists_of_bind_eq_ok h
  obtain ⟨new, hnew, h⟩ := exists_of_bind_eq_ok h
  rw [Element.encode_eq_ok hnew] at h
  obtain ⟨hlength, hafter⟩ := eq_of_replace_eq_ok h
  exact ⟨id, old, hid, get?_of_bytes_eq_ok hold, hlength, hafter⟩

theorem agreeOutside_writeAt {b : Binding} {index : Nat} {e : Element} {words : List e.Word}
    (h : before.writeAt b index e words = .ok after) : AgreeOutside b.Binds before after := by
  obtain ⟨id, old, hid, hfound, hlength, rfl⟩ := exists_of_writeAt_eq_ok h
  exact agreeOutside_set hfound hlength ⟨index, hid⟩

theorem bytes_of_absent {id : Nat} (h : before.get? id = none) :
    before.bytes id = .error (.unknownBuffer id) := by
  unfold bytes
  rw [h]

theorem readAt_of_absent {b : Binding} {index id : Nat} (hid : b.buffer index = .ok id)
    (h : before.get? id = none) (e : Element) :
    before.readAt b index e = .error (.unknownBuffer id) := by
  simp only [readAt, hid, bytes_of_absent h, bind, Except.bind]

theorem writeAt_of_absent {b : Binding} {index id : Nat} (hid : b.buffer index = .ok id)
    (h : before.get? id = none) (e : Element) (words : List e.Word) :
    before.writeAt b index e words = .error (.unknownBuffer id) := by
  simp only [writeAt, hid, bytes_of_absent h, bind, Except.bind]

end Buffers

/-! ## Calls -/

/-- An access that a body makes, with its outcome. -/
inductive Call
  | argument (index : Nat) (outcome : Except DeviceError KernelArgument)
  | scalar (index : Nat) (e : Element) (outcome : Except DeviceError e.Word)
  | read (index : Nat) (e : Element) (outcome : Except DeviceError (List e.Word))
  | write (index : Nat) (e : Element) (words : List e.Word) (outcome : Except DeviceError Unit)

namespace Call

/-- Whether a call reads or writes a buffer. -/
def Reaches (b : Binding) (id : Nat) : Call → Prop
  | read index _ _ | write index _ _ _ => b.buffer index = .ok id
  | _ => False

def error? : Call → Option DeviceError
  | argument _ (.error error) | scalar _ _ (.error error) | read _ _ (.error error)
  | write _ _ _ (.error error) => some error
  | _ => none

end Call

namespace Access

variable {α : Type}

/-- The calls that a sequence of accesses makes, in order. -/
def calls (b : Binding) : Access α → Buffers → List Call
  | finish _, _ => []
  | argument index next, buffers =>
    .argument index (b.argument index) :: (next (b.argument index)).calls b buffers
  | scalar index e next, buffers =>
    .scalar index e (b.scalar index e) :: (next (b.scalar index e)).calls b buffers
  | read index e next, buffers =>
    .read index e (buffers.readAt b index e) :: (next (buffers.readAt b index e)).calls b buffers
  | write index e words next, buffers =>
    match buffers.writeAt b index e words with
    | .ok changed => .write index e words (.ok ()) :: (next (.ok ())).calls b changed
    | .error error => .write index e words (.error error) :: (next (.error error)).calls b buffers

/-- A write on its own fails and changes nothing, or it replaces the bytes of the buffer bound at its
position. Whatever follows it goes on from there. -/
theorem run_putElements (b : Binding) (buffers : Buffers) (index : Nat) (e : Element)
    (words : List e.Word) :
    ∃ outcome changed, (putElements index e words).run b buffers = (outcome, changed) ∧
      (∀ error, outcome = .error error → changed = buffers) ∧
      (outcome = .ok () → ∃ id, b.buffer index = .ok id ∧
        changed = Keyed.set id (words.flatMap e.bytes) buffers) ∧
      ∀ next : Except DeviceError Unit → Access α,
        (write index e words next).run b buffers = (next outcome).run b changed := by
  unfold putElements
  cases hwrite : buffers.writeAt b index e words with
  | error error =>
    refine ⟨.error error, buffers, ?_, ?_, ?_, ?_⟩
    · simp only [run, hwrite]
    · intro _ _
      rfl
    · intro hok
      cases hok
    · intro next
      simp only [run, hwrite]
  | ok changed =>
    obtain ⟨id, old, hid, -, -, hchanged⟩ := Buffers.exists_of_writeAt_eq_ok hwrite
    refine ⟨.ok (), changed, ?_, ?_, ?_, ?_⟩
    · simp only [run, hwrite]
    · intro error herror
      cases herror
    · intro _
      exact ⟨id, hid, hchanged⟩
    · intro next
      simp only [run, hwrite]

/-- A body keeps the numbers and lengths of the buffers and the bytes of those that are not bound. -/
theorem agreeOutside_run (b : Binding) (body : Access α) (buffers : Buffers) :
    Buffers.AgreeOutside b.Binds buffers (body.run b buffers).2 := by
  -- over the tree of accesses; the buffers are free, since a write changes them for what follows
  induction body generalizing buffers with
  | finish result => exact .refl _ _
  | argument index next ih => exact ih _ _
  | scalar index e next ih => exact ih _ _
  | read index e next ih => exact ih _ _
  | write index e words next ih =>
    unfold run
    cases hwrite : buffers.writeAt b index e words with
    | error error => exact ih _ _
    | ok changed => exact (Buffers.agreeOutside_writeAt hwrite).trans (ih _ _)

/-- A buffer that is not there when a body starts is missing in each of its calls that need it. -/
theorem error?_of_mem_calls {b : Binding} {id : Nat} (body : Access α) {buffers : Buffers}
    (habsent : buffers.get? id = none) {call : Call} (hcall : call ∈ body.calls b buffers)
    (hreaches : call.Reaches b id) : call.error? = some (.unknownBuffer id) := by
  induction body generalizing buffers with
  | finish result => cases hcall
  | argument index next ih =>
    rcases List.mem_cons.1 hcall with rfl | hcall
    · exact hreaches.elim
    · exact ih _ habsent hcall
  | scalar index e next ih =>
    rcases List.mem_cons.1 hcall with rfl | hcall
    · exact hreaches.elim
    · exact ih _ habsent hcall
  | read index e next ih =>
    rcases List.mem_cons.1 hcall with rfl | hcall
    · rw [Buffers.readAt_of_absent hreaches habsent]
      rfl
    · exact ih _ habsent hcall
  | write index e words next ih =>
    unfold calls at hcall
    cases hwrite : buffers.writeAt b index e words with
    | error error =>
      rw [hwrite] at hcall
      rcases List.mem_cons.1 hcall with rfl | hcall
      · rw [Buffers.writeAt_of_absent hreaches habsent] at hwrite
        cases hwrite
        rfl
      · exact ih _ habsent hcall
    | ok changed =>
      rw [hwrite] at hcall
      rcases List.mem_cons.1 hcall with rfl | hcall
      · rw [Buffers.writeAt_of_absent hreaches habsent] at hwrite
        cases hwrite
      · -- no write brings the buffer back
        have hlength := (Buffers.agreeOutside_writeAt hwrite).lengths id
        rw [habsent, Option.map_none, Option.map_eq_none_iff] at hlength
        exact ih _ hlength hcall

end Access

end PrecisionAudit
