import PrecisionAudit.Proofs.Device.Handles
import PrecisionAudit.Proofs.Device.Runs

/-!
# Contents of buffers

What a live buffer holds can be told from the history alone: the bytes of the latest write to it, or
zeros if there was none.

## Main results

- `HostDevice.not_touches_of_not_targets`: an operation on other buffers leaves no trace of a buffer.
- `HostDevice.Trace.get?_eq_latestWrite`: the bytes of a live buffer.
- `HostDevice.readBuffer_eq_latestWrite`: what a read answers after any operations.
-/

namespace PrecisionAudit

namespace Event

/-- The bytes that are written to a buffer. -/
def writtenTo? (id : Nat) : Event → Option (List UInt8)
  | written target bytes => if target = id then some bytes else none
  | _ => none

/-- Whether a buffer is written to or released. -/
def Touches (id : Nat) : Event → Prop
  | written target _ | bufferReleased target => target = id
  | _ => False

theorem touches_of_writtenTo? {id : Nat} {event : Event} {bytes : List UInt8}
    (h : event.writtenTo? id = some bytes) : event.Touches id := by
  cases event with
  | written target _ =>
    rw [writtenTo?] at h
    split at h
    case isTrue heq => exact heq
    case isFalse => cases h
  | _ => cases h

end Event

/-! ## Latest writes -/

/-- The bytes of the latest write to a buffer. -/
def latestWrite (id : Nat) (history : List Event) : Option (List UInt8) :=
  (history.filterMap (Event.writtenTo? id)).getLast?

theorem latestWrite_append (id : Nat) (first second : List Event) :
    latestWrite id (first ++ second) = (latestWrite id second).or (latestWrite id first) :=
  latest_append (Event.writtenTo? id) first second

theorem latestWrite_singleton (id : Nat) (event : Event) :
    latestWrite id [event] = event.writtenTo? id :=
  latest_singleton (Event.writtenTo? id) event

theorem latestWrite_eq_none {id : Nat} {history : List Event}
    (h : ∀ event ∈ history, ¬ event.Touches id) : latestWrite id history = none := by
  refine latest_eq_none_iff.2 fun event hevent => ?_
  cases hbytes : event.writtenTo? id with
  | none => rfl
  | some bytes => exact absurd (Event.touches_of_writtenTo? hbytes) (h event hevent)

/-! ## Operations on a buffer -/

/-- A write of a body is one to a buffer that is bound. -/
theorem Call.binds_of_touches {b : Binding} {call : Call} {event : Event} {id : Nat}
    (hevent : call.event? b = some event) (htouches : event.Touches id) : b.Binds id := by
  cases call with
  | write index e words outcome =>
    cases outcome with
    | error => cases hevent
    | ok =>
      obtain ⟨target, htarget, rfl⟩ := Option.map_eq_some_iff.1 hevent
      cases htouches
      cases hbuffer : b.buffer index with
      | error => rw [hbuffer] at htarget; cases htarget
      | ok found =>
        rw [hbuffer] at htarget
        cases htarget
        exact ⟨index, hbuffer⟩
  | _ => cases hevent

namespace HostDevice

/-- Whether an operation is one on a buffer: a write to it, its release, or a run of a kernel to which it
is bound. -/
def Targets (d : HostDevice) (id : Nat) : Operation → Prop
  | .writeBuffer handle _ | .writeElements handle _ _ | .releaseBuffer handle => handle.id = id
  | .run handle _ => d.Bound handle id
  | _ => False

theorem targets_of_effect {d : HostDevice} {operation : Operation} {answer : Answer} {event : Event}
    {id : Nat} (hevent : event ∈ operation.effect answer) (htouches : event.Touches id) :
    d.Targets id operation := by
  unfold Operation.effect at hevent
  split at hevent
  case h_10 => cases hevent
  -- all other effects are single events, and they touch what the operation names
  all_goals
    cases List.mem_singleton.1 hevent
    exact htouches

theorem not_touches_of_not_targets {d : HostDevice} {operation : Operation} {id : Nat}
    (h : ¬ d.Targets id operation) : ∀ event ∈ d.events operation, ¬ event.Touches id := by
  intro event hevent htouches
  refine h ?_
  cases hrun : operation.isRun with
  | true =>
    cases operation with
    | run handle launch =>
      rw [events, bodyEvents] at hevent
      cases hprepare : d.prepare handle launch with
      | error => rw [hprepare] at hevent; cases hevent
      | ok prepared =>
        rw [hprepare] at hevent
        obtain ⟨call, -, hcall⟩ := List.mem_filterMap.1 hevent
        exact bound_of_prepare hprepare (Call.binds_of_touches hcall htouches)
    | _ => cases hrun
  | false =>
    rw [d.events_of_not_isRun hrun] at hevent
    split at hevent
    case h_2 => cases hevent
    case h_1 answer _ => exact targets_of_effect hevent htouches

/-! ## Bytes -/

namespace Trace

variable {history : List Event} {d : HostDevice}

theorem not_touches_nextId (trace : Trace fresh history d) {event : Event} (hevent : event ∈ history) :
    ¬ event.Touches d.nextId := by
  intro htouches
  refine trace.number?_ne_nextId hevent ?_
  cases event with
  | written => exact congrArg some htouches
  | bufferReleased => exact congrArg some htouches
  | _ => exact htouches.elim

/-- A live buffer holds the bytes of the latest write to it, or zeros. -/
theorem get?_eq_latestWrite (trace : Trace fresh history d) {handle : BufferHandle}
    (hcreated : .bufferCreated handle ∈ history) (hlive : .bufferReleased handle.id ∉ history) :
    d.buffers.get? handle.id =
      some ((latestWrite handle.id history).getD (List.replicate handle.size 0)) := by
  induction trace with
  | start => cases hcreated
  | @step events event d d' trace transition ih =>
    rw [latestWrite_append, latestWrite_singleton]
    rw [List.mem_append, not_or] at hlive
    rcases List.mem_append.1 hcreated with hcreated | hevent
    · -- the buffer is there already: only a write to it changes its bytes
      have hstored := ih hcreated hlive.1
      cases transition with
      | bufferCreated => rw [Keyed.get?_append, hstored]; rfl
      | @written id old new =>
        rw [Keyed.get?_set, Event.writtenTo?]
        split
        case isTrue => rfl
        case isFalse => exact hstored
      | @bufferReleased id =>
        have hne : id ≠ handle.id := fun h => hlive.2 (List.mem_singleton.2 (congrArg _ h.symm))
        rw [Keyed.get?_erase, if_neg hne]
        exact hstored
      | _ => exact hstored
    · -- a buffer that has just been created is filled with zeros
      cases List.mem_singleton.1 hevent
      cases transition with
      | @bufferCreated size =>
        have hnone := latestWrite_eq_none fun _ => trace.not_touches_nextId
        rw [Keyed.get?_append, trace.buffer_absent_nextId, Option.none_or, Keyed.get?_cons, if_pos rfl, hnone]
        rfl

end Trace

/-- After any operations, a read of a live buffer answers the bytes of the latest write to it, and zeros
if there was none. Its handle is the only one with its number, and no operation on other buffers changes
the answer. -/
theorem readBuffer_eq_latestWrite (operations : List Operation) (handle : BufferHandle)
    (hcreated : .bufferCreated handle ∈ fresh.history operations)
    (hlive : .bufferReleased handle.id ∉ fresh.history operations) :
    (fresh.after operations).readBuffer handle =
      .ok ((latestWrite handle.id (fresh.history operations)).getD (List.replicate handle.size 0)) ∧
    (∀ other, .bufferCreated other ∈ fresh.history operations → other.id = handle.id →
      other = handle) ∧
    ∀ operation, ¬ (fresh.after operations).Targets handle.id operation →
      ((fresh.after operations).perform operation).2.readBuffer handle =
        (fresh.after operations).readBuffer handle := by
  have trace := fresh.trace_after operations
  have hread {d : HostDevice} {bytes : List UInt8} (h : d.buffers.get? handle.id = some bytes) :
      d.readBuffer handle = .ok bytes := by
    unfold readBuffer Buffers.bytes
    rw [h]
  have hstored := trace.get?_eq_latestWrite hcreated hlive
  refine ⟨hread hstored, fun other hother hid => ?_, fun operation hother => ?_⟩
  · cases eq_of_issued?_eq trace.issued_nodup hother hcreated (congrArg some hid) rfl
    rfl
  · -- the history with the events of the operation has the same latest write
    have huntouched := not_touches_of_not_targets hother
    have trace' := trace.append ((fresh.after operations).trace_perform operation)
    have hlive' : .bufferReleased handle.id ∉
        fresh.history operations ++ (fresh.after operations).events operation := by
      rw [List.mem_append, not_or]
      exact ⟨hlive, fun h => huntouched _ h rfl⟩
    have hstored' := trace'.get?_eq_latestWrite (List.mem_append_left _ hcreated) hlive'
    rw [latestWrite_append, latestWrite_eq_none huntouched, Option.none_or] at hstored'
    rw [hread hstored, hread hstored']

/-- A body writes to the first of two buffers and fails, and the second buffer is released. -/
theorem readBuffer_eq_latestWrite_failed_body :
    (fresh.after
      [.createBuffer 2, .createBuffer 4, .writeBuffer ⟨1, 2⟩ [1, 2],
        .register "set" fun _ => do
          Access.putElements 0 .uint8 [7, 8]
          Access.fail (.launchFailed "after a write"),
        .createKernel "set", .setArgument ⟨3, "set"⟩ 0 (.buffer ⟨1, 2⟩), .run ⟨3, "set"⟩ (.line 1),
        .releaseBuffer ⟨2, 4⟩]).readBuffer ⟨1, 2⟩ = .ok [7, 8] := by
  refine (readBuffer_eq_latestWrite _ ⟨1, 2⟩ List.mem_cons_self ?_).1
  show Event.bufferReleased 1 ∉ [.bufferCreated ⟨1, 2⟩, .bufferCreated ⟨2, 4⟩, .written 1 [1, 2],
    .registered "set" _, .kernelCreated ⟨3, "set"⟩, .argumentSet 3 0 (.buffer ⟨1, 2⟩),
    .written 1 [7, 8], .bufferReleased 2]
  simp

end HostDevice

end PrecisionAudit
