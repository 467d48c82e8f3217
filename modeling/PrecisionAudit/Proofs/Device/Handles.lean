import Mathlib.Data.List.Pairwise
import PrecisionAudit.Proofs.Device.History

/-!
# Handles

A device gives out its numbers one after another, so that no number is given out twice and what is live
can be told from what has been released. Whoever holds a handle of something that has been released is
refused for good, directly and from inside the body of a kernel.

## Main results

- `HostDevice.Trace.issued_eq`: the numbers are given out in order, without gaps.
- `HostDevice.Trace.released?_ne_of_live`: what is live has not been released before.
- `HostDevice.handles_sound`: all that the handles of a device are good for, after any operations.
-/

namespace PrecisionAudit

namespace Event

/-- The number that is given out. -/
def issued? : Event → Option Nat
  | bufferCreated handle => some handle.id
  | kernelCreated handle => some handle.id
  | _ => none

/-- The number of the buffer or kernel that something has happened to. -/
def number? : Event → Option Nat
  | bufferCreated handle => some handle.id
  | written id _ | bufferReleased id => some id
  | kernelCreated handle => some handle.id
  | argumentSet id _ _ | kernelReleased id => some id
  | registered _ _ => none

/-- The number that is released. -/
def released? : Event → Option Nat
  | bufferReleased id | kernelReleased id => some id
  | _ => none

theorem number?_of_released? {event : Event} {id : Nat} (h : event.released? = some id) :
    event.number? = some id := by
  cases event with
  | bufferReleased => exact h
  | kernelReleased => exact h
  | _ => cases h

end Event

/-- The numbers that have been given out, in order. -/
def issued (history : List Event) : List Nat := history.filterMap Event.issued?

theorem issued_append (first second : List Event) : issued (first ++ second) = issued first ++ issued second :=
  List.filterMap_append

/-- Events that give out the same number are the same if no number is given out twice. -/
theorem eq_of_issued?_eq {history : List Event} (hnodup : (issued history).Nodup) {event other : Event}
    (hevent : event ∈ history) (hother : other ∈ history) {id : Nat}
    (hid : event.issued? = some id) (hid' : other.issued? = some id) : event = other := by
  by_contra hne
  have hpairwise := List.pairwise_filterMap.1 hnodup
  have : Std.Symm fun a b : Event =>
      ∀ m, a.issued? = some m → ∀ n, b.issued? = some n → m ≠ n :=
    ⟨fun a b h m hm n hn => (h n hn m hm).symm⟩
  exact hpairwise.forall hevent hother hne id hid id hid' rfl

namespace HostDevice

/-! ## Numbers -/

namespace Trace

variable {history : List Event} {d : HostDevice}

theorem issued_eq (trace : Trace fresh history d) :
    issued history = List.range' 1 (d.nextId - 1) ∧ 0 < d.nextId := by
  induction trace with
  | start => exact ⟨rfl, Nat.one_pos⟩
  | @step events event d d' _ transition ih =>
    obtain ⟨hissued, hpos⟩ := ih
    rw [issued_append, hissued]
    -- only a creation counts, and it takes the next number
    have hnext : List.range' 1 (d.nextId - 1) ++ [d.nextId] = List.range' 1 d.nextId := by
      obtain ⟨n, hn⟩ : ∃ n, d.nextId = n + 1 := ⟨d.nextId - 1, by omega⟩
      rw [hn, Nat.add_sub_cancel, List.range'_concat, Nat.mul_comm, Nat.mul_one, Nat.add_comm n 1]
    cases transition with
    | bufferCreated => exact ⟨hnext, Nat.succ_pos _⟩
    | kernelCreated => exact ⟨hnext, Nat.succ_pos _⟩
    | _ => exact ⟨List.append_nil _, hpos⟩

theorem issued_nodup (trace : Trace fresh history d) : (issued history).Nodup := by
  rw [trace.issued_eq.1]
  exact List.nodup_range'

theorem length_issued (trace : Trace fresh history d) : d.nextId = (issued history).length + 1 := by
  obtain ⟨hissued, hpos⟩ := trace.issued_eq
  rw [hissued, List.length_range']
  omega

theorem lt_of_mem_issued (trace : Trace fresh history d) {id : Nat} (hid : id ∈ issued history) :
    id < d.nextId := by
  rw [trace.issued_eq.1, List.mem_range'_1] at hid
  omega

end Trace

/-! ## What is live -/

/-- Whether a number names a buffer or a kernel. -/
def Live (d : HostDevice) (id : Nat) : Prop :=
  (∃ bytes, d.buffers.get? id = some bytes) ∨ ∃ kernel, d.kernels.get? id = some kernel

/-- Only a creation makes something live, under the next number. -/
theorem Transition.live_or_eq_nextId {d d' : HostDevice} {event : Event}
    (transition : Transition d event d') {id : Nat} (hlive : d'.Live id) :
    d.Live id ∨ id = d.nextId := by
  rcases hlive with ⟨bytes, hbuffer⟩ | ⟨kernel, hkernel⟩
  · cases transition with
    | bufferCreated =>
      rcases Keyed.eq_some_of_get?_add hbuffer with hbuffer | ⟨rfl, -⟩
      · exact .inl (.inl ⟨_, hbuffer⟩)
      · exact .inr rfl
    | written hwritten =>
      rcases Keyed.eq_some_of_get?_set hbuffer with hbuffer | ⟨rfl, -⟩
      · exact .inl (.inl ⟨_, hbuffer⟩)
      · exact .inl (.inl ⟨_, hwritten⟩)
    | bufferReleased => exact .inl (.inl ⟨_, (Keyed.eq_some_of_get?_erase hbuffer).1⟩)
    | _ => exact .inl (.inl ⟨_, hbuffer⟩)
  · cases transition.kernelOrigin hkernel with
    | kept hbefore _ => exact .inl (.inr ⟨_, hbefore⟩)
    | created hid _ _ => exact .inr hid
    | bound hbefore _ => exact .inl (.inr ⟨_, hbefore⟩)

namespace Trace

variable {history : List Event} {d : HostDevice}

/-- A live buffer was created, and it has kept its length. -/
theorem exists_bufferCreated (trace : Trace fresh history d) {id : Nat} {bytes : List UInt8}
    (hfound : d.buffers.get? id = some bytes) :
    ∃ handle, .bufferCreated handle ∈ history ∧ handle.id = id ∧ bytes.length = handle.size ∧
      0 < handle.size := by
  -- over the history; the bytes are free, since a write replaces them
  induction trace generalizing id bytes with
  | start => cases hfound
  | @step events event d d' _ transition ih =>
    -- what was live before was created before
    have hold {bytes : List UInt8} (h : d.buffers.get? id = some bytes) :
        ∃ handle, .bufferCreated handle ∈ events ++ [event] ∧ handle.id = id ∧
          bytes.length = handle.size ∧ 0 < handle.size := by
      obtain ⟨handle, hmem, hrest⟩ := ih h
      exact ⟨handle, List.mem_append_left _ hmem, hrest⟩
    cases transition with
    | @bufferCreated size hsize =>
      rcases Keyed.eq_some_of_get?_add hfound with hfound | ⟨hid, rfl⟩
      · exact hold hfound
      · exact ⟨⟨d.nextId, size⟩, List.mem_append_right _ (List.mem_singleton_self _), hid,
          List.length_replicate, hsize⟩
    | written hwritten hlength =>
      rcases Keyed.eq_some_of_get?_set hfound with hfound | ⟨rfl, rfl⟩
      · exact hold hfound
      · rw [hlength]
        exact hold hwritten
    | bufferReleased => exact hold (Keyed.eq_some_of_get?_erase hfound).1
    | _ => exact hold hfound

/-- A live kernel was created, and it has kept its name. -/
theorem exists_kernelCreated (trace : Trace fresh history d) {id : Nat} {kernel : KernelInstance}
    (hfound : d.kernels.get? id = some kernel) :
    ∃ handle, .kernelCreated handle ∈ history ∧ handle.id = id ∧ kernel.name = handle.name := by
  induction trace generalizing id kernel with
  | start => cases hfound
  | @step events event d d' _ transition ih =>
    have hold {kernel : KernelInstance} (h : d.kernels.get? id = some kernel) :
        ∃ handle, .kernelCreated handle ∈ events ++ [event] ∧ handle.id = id ∧
          kernel.name = handle.name := by
      obtain ⟨handle, hmem, hrest⟩ := ih h
      exact ⟨handle, List.mem_append_left _ hmem, hrest⟩
    cases transition.kernelOrigin hfound with
    | kept hbefore _ => exact hold hbefore
    | @created name _ _ hevent _ =>
      exact ⟨⟨id, name⟩, List.mem_append_right _ (List.mem_singleton.2 hevent.symm), rfl, rfl⟩
    | bound hbefore _ =>
      -- a changed argument leaves the name
      obtain ⟨handle, hmem, hrest⟩ := hold hbefore
      exact ⟨handle, hmem, hrest⟩

theorem mem_issued_of_live (trace : Trace fresh history d) {id : Nat} (hlive : d.Live id) :
    id ∈ issued history := by
  rcases hlive with ⟨bytes, hfound⟩ | ⟨kernel, hfound⟩
  · obtain ⟨handle, hmem, rfl, -⟩ := trace.exists_bufferCreated hfound
    exact List.mem_filterMap.2 ⟨_, hmem, rfl⟩
  · obtain ⟨handle, hmem, rfl, -⟩ := trace.exists_kernelCreated hfound
    exact List.mem_filterMap.2 ⟨_, hmem, rfl⟩

theorem not_live_nextId (trace : Trace fresh history d) : ¬ d.Live d.nextId :=
  fun hlive => absurd (trace.lt_of_mem_issued (trace.mem_issued_of_live hlive)) (Nat.lt_irrefl _)

theorem buffer_absent_nextId (trace : Trace fresh history d) : d.buffers.get? d.nextId = none :=
  Option.eq_none_iff_forall_ne_some.2 fun _ h => trace.not_live_nextId (.inl ⟨_, h⟩)

theorem kernel_absent_nextId (trace : Trace fresh history d) : d.kernels.get? d.nextId = none :=
  Option.eq_none_iff_forall_ne_some.2 fun _ h => trace.not_live_nextId (.inr ⟨_, h⟩)

theorem kernel_absent_of_buffer (trace : Trace fresh history d) {id : Nat} {bytes : List UInt8}
    (hfound : d.buffers.get? id = some bytes) : d.kernels.get? id = none := by
  cases hkernel : d.kernels.get? id with
  | none => rfl
  | some kernel =>
    obtain ⟨buffer, hbuffer, hid, -⟩ := trace.exists_bufferCreated hfound
    obtain ⟨handle, hhandle, hid', -⟩ := trace.exists_kernelCreated hkernel
    -- the creations would be the same event, but one is of a buffer and one of a kernel
    cases eq_of_issued?_eq trace.issued_nodup hbuffer hhandle (congrArg some hid) (congrArg some hid')

/-- Things happen only to what has a number already. -/
theorem mem_issued_of_mem (trace : Trace fresh history d) {event : Event} (hevent : event ∈ history)
    {id : Nat} (hid : event.number? = some id) : id ∈ issued history := by
  induction trace with
  | start => cases hevent
  | @step events new d d' trace transition ih =>
    rw [issued_append, List.mem_append]
    rcases List.mem_append.1 hevent with hevent | hevent
    · exact .inl (ih hevent)
    · cases List.mem_singleton.1 hevent
      cases transition with
      | bufferCreated => exact .inr (List.mem_singleton.2 (Option.some.inj hid).symm)
      | kernelCreated => exact .inr (List.mem_singleton.2 (Option.some.inj hid).symm)
      | written hfound =>
        cases hid
        exact .inl (trace.mem_issued_of_live (.inl ⟨_, hfound⟩))
      | bufferReleased hfound =>
        cases hid
        exact .inl (trace.mem_issued_of_live (.inl ⟨_, hfound⟩))
      | argumentSet _ _ hfound =>
        cases hid
        exact .inl (trace.mem_issued_of_live (.inr ⟨_, hfound⟩))
      | kernelReleased hfound =>
        cases hid
        exact .inl (trace.mem_issued_of_live (.inr ⟨_, hfound⟩))
      | registered => cases hid

/-- Nothing has happened to the number that is given out next. -/
theorem number?_ne_nextId (trace : Trace fresh history d) {event : Event} (hevent : event ∈ history) :
    event.number? ≠ some d.nextId := by
  intro hnumber
  have hissued := trace.mem_issued_of_mem hevent hnumber
  exact Nat.lt_irrefl _ (trace.lt_of_mem_issued hissued)

/-! ## What has been released -/

/-- What is live has not been released, for its number is not given out again. -/
theorem released?_ne_of_live (trace : Trace fresh history d) {id : Nat} (hlive : d.Live id)
    {event : Event} (hevent : event ∈ history) : event.released? ≠ some id := by
  induction trace with
  | start => cases hevent
  | @step events new d d' trace transition ih =>
    intro hreleased
    rcases List.mem_append.1 hevent with hevent | hevent
    · -- what was released before has a number less than the next one
      rcases transition.live_or_eq_nextId hlive with hlive | rfl
      · exact ih hlive hevent hreleased
      · have hissued := trace.mem_issued_of_mem hevent (Event.number?_of_released? hreleased)
        exact absurd (trace.lt_of_mem_issued hissued) (Nat.lt_irrefl _)
    · -- what is released now could be live only in the other store
      cases List.mem_singleton.1 hevent
      cases transition with
      | bufferReleased hfound =>
        cases hreleased
        rcases hlive with ⟨_, hbuffer⟩ | ⟨_, hkernel⟩
        · exact (Keyed.eq_some_of_get?_erase hbuffer).2 rfl
        · cases (trace.kernel_absent_of_buffer hfound).symm.trans hkernel
      | kernelReleased hfound =>
        cases hreleased
        rcases hlive with ⟨_, hbuffer⟩ | ⟨_, hkernel⟩
        · cases (trace.kernel_absent_of_buffer hbuffer).symm.trans hfound
        · exact (Keyed.eq_some_of_get?_erase hkernel).2 rfl
      | _ => cases hreleased

end Trace

/-! ## Refusals -/

/-- How a device treats the handle of a buffer that is not there: every use fails for that reason, unless
the elements to be written are too many for any memory, and none has an effect. That includes the calls
of a body to which the buffer is still bound. -/
structure RefusesBuffer (d : HostDevice) (handle : BufferHandle) : Prop where
  read : d.readBuffer handle = .error (.unknownBuffer handle.id)
  readElements : ∀ e : Element, d.readElements handle e = .error (.unknownBuffer handle.id)
  write : ∀ bytes : List UInt8, d.writeBuffer handle bytes = (.error (.unknownBuffer handle.id), d)
  writeElements : ∀ (e : Element) (words : List e.Word), d.writeElements handle e words =
    (e.encode words >>= fun _ => .error (.unknownBuffer handle.id), d)
  release : d.releaseBuffer handle = (.error (.unknownBuffer handle.id), d)
  setArgument : ∀ (kernel : KernelHandle) (index : Nat),
    d.setArgument kernel index (.buffer handle) = (.error (.unknownBuffer handle.id), d)
  body : ∀ (kernel : KernelHandle) (launch : Launch) (body : Kernel) (b : Binding),
    d.prepare kernel launch = .ok (body, b) → ∀ call ∈ (body launch).calls b d.buffers,
      call.Reaches b handle.id →
        call.error? = some (.unknownBuffer handle.id) ∧ call.event? b = none

/-- How a device treats the handle of a kernel that is not there: every use fails for that reason, unless
the launch is impossible or the argument names a buffer that is not there, and none has an effect. -/
structure RefusesKernel (d : HostDevice) (handle : KernelHandle) : Prop where
  setArgument : ∀ (index : Nat) (argument : KernelArgument),
    ∃ error, d.setArgument handle index argument = (.error error, d) ∧
      (error = .unknownKernel handle.id ∨
        ∃ buffer : BufferHandle, argument = .buffer buffer ∧ d.buffers.get? buffer.id = none ∧
          error = .unknownBuffer buffer.id)
  run : ∀ launch : Launch, d.run handle launch =
    (launch.validate d.info >>= fun _ => .error (.unknownKernel handle.id), d)
  release : d.releaseKernel handle = (.error (.unknownKernel handle.id), d)

theorem missingBuffer?_buffer (d : HostDevice) (handle : BufferHandle) :
    d.missingBuffer? (.buffer handle) =
      if (d.buffers.get? handle.id).isSome then none else some handle.id :=
  rfl

theorem refusesBuffer_of_absent {d : HostDevice} {handle : BufferHandle}
    (habsent : d.buffers.get? handle.id = none) : d.RefusesBuffer handle := by
  have hbytes := Buffers.bytes_of_absent habsent
  have hwrite (bytes : List UInt8) :
      d.writeBuffer handle bytes = (.error (.unknownBuffer handle.id), d) := by
    unfold writeBuffer
    rw [hbytes]
  constructor
  case read => exact hbytes
  case readElements =>
    intro e
    simp only [HostDevice.readElements, readBuffer, hbytes, bind, Except.bind]
  case write => exact hwrite
  case writeElements =>
    intro e words
    unfold HostDevice.writeElements
    cases e.encode words with
    | ok bytes => exact hwrite bytes
    | error error => rfl
  case release =>
    unfold releaseBuffer
    rw [habsent]
  case setArgument =>
    intro kernel index
    unfold HostDevice.setArgument
    rw [missingBuffer?_buffer, habsent]
    rfl
  case body =>
    intro kernel launch body b hprepare call hcall hreaches
    have herror := Access.error?_of_mem_calls (body launch) habsent hcall hreaches
    exact ⟨herror, Call.event?_of_error? herror⟩

theorem refusesKernel_of_absent {d : HostDevice} {handle : KernelHandle}
    (habsent : d.kernels.get? handle.id = none) : d.RefusesKernel handle := by
  constructor
  case setArgument =>
    intro index argument
    unfold HostDevice.setArgument
    cases hmissing : d.missingBuffer? argument with
    | none =>
      rw [habsent]
      exact ⟨_, rfl, .inl rfl⟩
    | some id =>
      refine ⟨_, rfl, .inr ?_⟩
      cases argument with
      | buffer buffer =>
        rw [missingBuffer?_buffer] at hmissing
        split at hmissing
        case isTrue => cases hmissing
        case isFalse hnone =>
          cases hmissing
          exact ⟨buffer, rfl, Option.not_isSome_iff_eq_none.1 hnone, rfl⟩
      | _ => cases hmissing
  case run =>
    intro launch
    unfold HostDevice.run prepare
    cases launch.validate d.info with
    | error error => rfl
    | ok =>
      rw [habsent]
      rfl
  case release =>
    unfold releaseKernel
    rw [habsent]

/-! ## All handles -/

/-- What the numbers of a device and the handles that carry them are worth. -/
structure HandleInvariant (history : List Event) (d : HostDevice) : Prop where
  /-- The next number is greater than all that have been given out. -/
  issued_lt : ∀ id ∈ issued history, id < d.nextId
  /-- No number is given out twice. -/
  issued_nodup : (issued history).Nodup
  /-- The numbers are used up by creations only. -/
  nextId_eq : d.nextId = (issued history).length + 1
  /-- No number names a buffer and a kernel. -/
  disjoint : ∀ id bytes, d.buffers.get? id = some bytes → d.kernels.get? id = none
  /-- A live buffer was created with a handle that has its number, and is as long as that says. -/
  buffers : ∀ id bytes, d.buffers.get? id = some bytes →
    ∃ handle, .bufferCreated handle ∈ history ∧ handle.id = id ∧ bytes.length = handle.size ∧
      0 < handle.size
  /-- A live kernel was created with a handle that has its number, and has the name that it says. -/
  kernels : ∀ id kernel, d.kernels.get? id = some kernel →
    ∃ handle, .kernelCreated handle ∈ history ∧ handle.id = id ∧ kernel.name = handle.name

theorem Trace.handleInvariant {history : List Event} {d : HostDevice} (trace : Trace fresh history d) :
    HandleInvariant history d where
  issued_lt _ := trace.lt_of_mem_issued
  issued_nodup := trace.issued_nodup
  nextId_eq := trace.length_issued
  disjoint _ _ := trace.kernel_absent_of_buffer
  buffers _ _ := trace.exists_bufferCreated
  kernels _ _ := trace.exists_kernelCreated

/-- After any operations, no number has been given out twice, live buffers and kernels are those of the
handles that were given out for them, and the handle of a buffer or kernel that has been released at any
time is refused. -/
theorem handles_sound (operations : List Operation) :
    HandleInvariant (fresh.history operations) (fresh.after operations) ∧
    (∀ handle, .bufferCreated handle ∈ fresh.history operations →
      .bufferReleased handle.id ∈ fresh.history operations →
        (fresh.after operations).RefusesBuffer handle) ∧
    ∀ handle, .kernelCreated handle ∈ fresh.history operations →
      .kernelReleased handle.id ∈ fresh.history operations →
        (fresh.after operations).RefusesKernel handle := by
  have trace := fresh.trace_after operations
  refine ⟨trace.handleInvariant, fun handle _ hreleased => ?_, fun handle _ hreleased => ?_⟩
  · refine refusesBuffer_of_absent ?_
    cases hfound : (fresh.after operations).buffers.get? handle.id with
    | none => rfl
    | some bytes => exact absurd rfl (trace.released?_ne_of_live (.inl ⟨_, hfound⟩) hreleased)
  · refine refusesKernel_of_absent ?_
    cases hfound : (fresh.after operations).kernels.get? handle.id with
    | none => rfl
    | some kernel => exact absurd rfl (trace.released?_ne_of_live (.inr ⟨_, hfound⟩) hreleased)

/-- A buffer is released while it is bound to a kernel, another buffer is created and another kernel is
released. The first kernel still starts, but its write is refused. -/
theorem handles_sound_bound :
    let d := fresh.after
      [.createBuffer 2, .register "set" fun _ => Access.putElements 0 .uint8 [7, 8],
        .createKernel "set", .setArgument ⟨2, "set"⟩ 0 (.buffer ⟨1, 2⟩), .releaseBuffer ⟨1, 2⟩,
        .createBuffer 2, .createKernel "set", .releaseKernel ⟨4, "set"⟩]
    d.readBuffer ⟨1, 2⟩ = .error (.unknownBuffer 1) ∧
      d.run ⟨4, "set"⟩ (.line 1) = (.error (.unknownKernel 4), d) ∧
      d.run ⟨2, "set"⟩ (.line 1) = (.error (.unknownBuffer 1), d) ∧
      d.readBuffer ⟨3, 2⟩ = .ok [0, 0] := by
  intro d
  obtain ⟨-, hbuffers, hkernels⟩ := handles_sound
    [.createBuffer 2, .register "set" fun _ => Access.putElements 0 .uint8 [7, 8],
      .createKernel "set", .setArgument ⟨2, "set"⟩ 0 (.buffer ⟨1, 2⟩), .releaseBuffer ⟨1, 2⟩,
      .createBuffer 2, .createKernel "set", .releaseKernel ⟨4, "set"⟩]
  have hbuffer := hbuffers ⟨1, 2⟩ (List.mem_of_getElem? (i := 0) rfl) (List.mem_of_getElem? (i := 4) rfl)
  have hkernel := hkernels ⟨4, "set"⟩ (List.mem_of_getElem? (i := 6) rfl)
    (List.mem_of_getElem? (i := 7) rfl)
  exact ⟨hbuffer.read, hkernel.run (.line 1), rfl, rfl⟩

end HostDevice

end PrecisionAudit
