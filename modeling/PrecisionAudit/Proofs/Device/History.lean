import PrecisionAudit.Device.Host
import PrecisionAudit.Proofs.Device.Calls

/-!
# Histories of a device

The operations on a device as one type, and what they do as a list of events. The events are read off
the calls and their answers only, not off the device. Every operation then is a sequence of transitions
of the device, one for each event, and an invariant of the transitions is one of all histories.

## Layers

- `Operation`, `HostDevice.perform`: the operations with their answers.
- `Event`, `HostDevice.events`, `HostDevice.history`: what operations do, as their callers see it.
- `HostDevice.Transition`, `HostDevice.Trace`: what an event does to a device.

## Main results

- `HostDevice.atomic_perform`: an operation that runs no body either fails and changes nothing, or it
  does what its answer says.
- `HostDevice.trace_run`: a run does what its body writes, whether the body fails or not.
- `HostDevice.trace_after`: a sequence of operations does what its history says.
-/

namespace PrecisionAudit

/-! ## Operations -/

/-- An operation on a device. -/
inductive Operation
  | createBuffer (size : Nat)
  | createBufferFor (e : Element) (count : Nat)
  | writeBuffer (handle : BufferHandle) (bytes : List UInt8)
  | writeElements (handle : BufferHandle) (e : Element) (words : List e.Word)
  | readBuffer (handle : BufferHandle)
  | readElements (handle : BufferHandle) (e : Element)
  | releaseBuffer (handle : BufferHandle)
  | register (name : String) (body : Kernel)
  | createKernel (name : String)
  | setArgument (handle : KernelHandle) (index : Nat) (argument : KernelArgument)
  | run (handle : KernelHandle) (launch : Launch)
  | releaseKernel (handle : KernelHandle)

/-- What an operation answers when it succeeds. -/
inductive Answer
  | done
  | buffer (handle : BufferHandle)
  | kernel (handle : KernelHandle)
  | bytes (bytes : List UInt8)
  | words (e : Element) (words : List e.Word)

/-- Something that has happened to a device. -/
inductive Event
  | bufferCreated (handle : BufferHandle)
  | written (id : Nat) (bytes : List UInt8)
  | bufferReleased (id : Nat)
  | registered (name : String) (body : Kernel)
  | kernelCreated (handle : KernelHandle)
  | argumentSet (id : Nat) (index : Nat) (argument : KernelArgument)
  | kernelReleased (id : Nat)

def Operation.isRun : Operation → Bool
  | run _ _ => true
  | _ => false

/-- What has happened when an operation that runs no body has succeeded with an answer. -/
def Operation.effect : Operation → Answer → List Event
  | createBuffer _, .buffer handle | createBufferFor _ _, .buffer handle => [.bufferCreated handle]
  | writeBuffer handle bytes, _ => [.written handle.id bytes]
  | writeElements handle e words, _ => [.written handle.id (words.flatMap e.bytes)]
  | releaseBuffer handle, _ => [.bufferReleased handle.id]
  | register name body, _ => [.registered name body]
  | createKernel _, .kernel handle => [.kernelCreated handle]
  | setArgument handle index argument, _ => [.argumentSet handle.id index argument]
  | releaseKernel handle, _ => [.kernelReleased handle.id]
  | _, _ => []

/-- What has happened when a body has made a call: a write that succeeded is a write to the buffer that
is bound at its position. -/
def Call.event? (b : Binding) : Call → Option Event
  | write index e words (.ok ()) =>
    (b.buffer index).toOption.map fun id => .written id (words.flatMap e.bytes)
  | _ => none

theorem Call.event?_of_error? {b : Binding} {call : Call} {error : DeviceError}
    (h : call.error? = some error) : call.event? b = none := by
  cases call with
  | write index e words outcome =>
    cases outcome with
    | ok => cases h
    | error => rfl
  | _ => rfl

/-! ## Latest events -/

/-- What the latest event of a kind says. -/
def latest {α : Type} (says? : Event → Option α) (history : List Event) : Option α :=
  (history.filterMap says?).getLast?

section Latest

variable {α : Type} {says? : Event → Option α} {history : List Event}

theorem latest_append (says? : Event → Option α) (first second : List Event) :
    latest says? (first ++ second) = (latest says? second).or (latest says? first) := by
  unfold latest
  rw [List.filterMap_append, List.getLast?_append]

theorem latest_singleton (says? : Event → Option α) (event : Event) :
    latest says? [event] = says? event := by
  unfold latest
  cases h : says? event with
  | none => rw [List.filterMap_cons_none h]; rfl
  | some a => rw [List.filterMap_cons_some h]; rfl

/-- Nothing has been said if no event says anything. -/
theorem latest_eq_none_iff : latest says? history = none ↔ ∀ event ∈ history, says? event = none := by
  unfold latest
  rw [List.getLast?_eq_none_iff, List.filterMap_eq_nil_iff]

/-- Otherwise some event has said something. -/
theorem latest_ne_none_iff :
    latest says? history ≠ none ↔ ∃ a, ∃ event ∈ history, says? event = some a := by
  rw [Ne, latest_eq_none_iff]
  constructor
  · intro h
    by_contra hnever
    refine h fun event hevent => Option.eq_none_iff_forall_ne_some.2 fun a hsays => ?_
    exact hnever ⟨a, event, hevent, hsays⟩
  · rintro ⟨a, event, hevent, hsays⟩ h
    rw [h event hevent] at hsays
    cases hsays

end Latest

namespace HostDevice

/-- An outcome with its result as an answer. -/
def Outcome.answer {α : Type} (outcome : Outcome α) (answer : α → Answer) : Outcome Answer :=
  (outcome.1.map answer, outcome.2)

def perform (d : HostDevice) : Operation → Outcome Answer
  | .createBuffer size => (d.createBuffer size).answer .buffer
  | .createBufferFor e count => (d.createBufferFor e count).answer .buffer
  | .writeBuffer handle bytes => (d.writeBuffer handle bytes).answer fun _ => .done
  | .writeElements handle e words => (d.writeElements handle e words).answer fun _ => .done
  | .readBuffer handle => ((d.readBuffer handle).map .bytes, d)
  | .readElements handle e => ((d.readElements handle e).map (.words e), d)
  | .releaseBuffer handle => (d.releaseBuffer handle).answer fun _ => .done
  | .register name body => (.ok .done, d.register name body)
  | .createKernel name => (d.createKernel name).answer .kernel
  | .setArgument handle index argument => (d.setArgument handle index argument).answer fun _ => .done
  | .run handle launch => (d.run handle launch).answer fun _ => .done
  | .releaseKernel handle => (d.releaseKernel handle).answer fun _ => .done

/-- What the body of a kernel does in a run, also if it fails in the end. -/
def bodyEvents (d : HostDevice) (handle : KernelHandle) (launch : Launch) : List Event :=
  match d.prepare handle launch with
  | .ok (body, binding) => ((body launch).calls binding d.buffers).filterMap (Call.event? binding)
  | .error _ => []

/-- What an operation does. -/
def events (d : HostDevice) : Operation → List Event
  -- the answer of a run does not tell what its body did
  | .run handle launch => d.bodyEvents handle launch
  | operation =>
    match (d.perform operation).1 with
    | .ok answer => operation.effect answer
    | .error _ => []

def after (d : HostDevice) : List Operation → HostDevice
  | [] => d
  | operation :: rest => (d.perform operation).2.after rest

/-- What a sequence of operations does, in order. -/
def history (d : HostDevice) : List Operation → List Event
  | [] => []
  | operation :: rest => d.events operation ++ (d.perform operation).2.history rest

/-! ## Transitions -/

/-- What an event needs of a device and does to it. -/
inductive Transition (d : HostDevice) : Event → HostDevice → Prop
  | bufferCreated {size : Nat} (hsize : 0 < size) :
    Transition d (.bufferCreated ⟨d.nextId, size⟩)
      { d with
        buffers := d.buffers ++ [(d.nextId, List.replicate size 0)]
        nextId := d.nextId + 1 }
  | written {id : Nat} {old new : List UInt8} (hfound : d.buffers.get? id = some old)
      (hlength : new.length = old.length) :
    Transition d (.written id new) { d with buffers := Keyed.set id new d.buffers }
  | bufferReleased {id : Nat} {bytes : List UInt8} (hfound : d.buffers.get? id = some bytes) :
    Transition d (.bufferReleased id) { d with buffers := d.buffers.erase id }
  | registered (name : String) (body : Kernel) :
    Transition d (.registered name body) { d with registry := d.registry.set name body }
  | kernelCreated {name : String} {body : Kernel} (hfound : d.registry.get? name = some body) :
    Transition d (.kernelCreated ⟨d.nextId, name⟩)
      { d with
        kernels := d.kernels ++ [(d.nextId, ⟨name, body, []⟩)]
        nextId := d.nextId + 1 }
  | argumentSet {id : Nat} {kernel : KernelInstance} (index : Nat) (argument : KernelArgument)
      (hfound : d.kernels.get? id = some kernel) :
    Transition d (.argumentSet id index argument)
      { d with
        kernels := d.kernels.set id
          { kernel with arguments := bindArgument kernel.arguments index argument } }
  | kernelReleased {id : Nat} {kernel : KernelInstance} (hfound : d.kernels.get? id = some kernel) :
    Transition d (.kernelReleased id) { d with kernels := d.kernels.erase id }

/-- Where a kernel comes from that is there after an event. -/
inductive KernelOrigin (d : HostDevice) (event : Event) (id : Nat) : KernelInstance → Prop
  | kept {kernel : KernelInstance} (hfound : d.kernels.get? id = some kernel)
      (hother : ∀ index argument, event ≠ .argumentSet id index argument) :
    KernelOrigin d event id kernel
  | created {name : String} {body : Kernel} (hid : id = d.nextId)
      (hevent : event = .kernelCreated ⟨id, name⟩) (hbody : d.registry.get? name = some body) :
    KernelOrigin d event id ⟨name, body, []⟩
  | bound {kernel : KernelInstance} {index : Nat} {argument : KernelArgument}
      (hfound : d.kernels.get? id = some kernel) (hevent : event = .argumentSet id index argument) :
    KernelOrigin d event id
      { kernel with arguments := bindArgument kernel.arguments index argument }

/-- A kernel was there before the event, or it has just been made from the body that is registered under
its name. Nothing but the binding of an argument changes it. -/
theorem Transition.kernelOrigin {d d' : HostDevice} {event : Event} (transition : Transition d event d')
    {id : Nat} {kernel : KernelInstance} (hfound : d'.kernels.get? id = some kernel) :
    KernelOrigin d event id kernel := by
  cases transition with
  | kernelCreated hbody =>
    rcases Keyed.eq_some_of_get?_add hfound with hfound | ⟨rfl, rfl⟩
    · exact .kept hfound (by simp)
    · exact .created rfl rfl hbody
  | @argumentSet target changed index argument hchanged =>
    by_cases hid : target = id
    · subst hid
      rw [Keyed.get?_set, if_pos rfl] at hfound
      cases hfound
      exact .bound hchanged rfl
    · -- an argument of another kernel
      rw [Keyed.get?_set, if_neg hid] at hfound
      exact .kept hfound (by simp [hid])
  | kernelReleased =>
    exact .kept (Keyed.eq_some_of_get?_erase hfound).1 (by simp)
  | _ => exact .kept hfound (by simp)

/-- The devices that a list of events leads to. -/
inductive Trace (start : HostDevice) : List Event → HostDevice → Prop
  | start : Trace start [] start
  | step {events : List Event} {event : Event} {d d' : HostDevice} (trace : Trace start events d)
      (transition : Transition d event d') : Trace start (events ++ [event]) d'

namespace Trace

variable {start d d' : HostDevice} {events events' : List Event} {event : Event}

theorem single (transition : Transition start event d) : Trace start [event] d :=
  Trace.start.step transition

theorem append (first : Trace start events d) (second : Trace d events' d') :
    Trace start (events ++ events') d' := by
  induction second with
  | start => rwa [List.append_nil]
  | step _ transition ih =>
    rw [← List.append_assoc]
    exact ih.step transition

end Trace

/-! ## Operations that run no body -/

/-- An outcome that is a failure without any effect, or a success that does what its result says. -/
inductive Outcome.Atomic {α : Type} (d : HostDevice) (events : α → List Event) : Outcome α → Prop
  | failure (error : DeviceError) : Atomic d events (.error error, d)
  | success {a : α} {d' : HostDevice} (trace : Trace d (events a) d') : Atomic d events (.ok a, d')

namespace Outcome.Atomic

variable {α : Type} {d : HostDevice} {events : α → List Event} {outcome : Outcome α}

theorem answer {answer : α → Answer} {effect : Answer → List Event}
    (h : outcome.Atomic d fun a => effect (answer a)) : (outcome.answer answer).Atomic d effect := by
  cases h with
  | failure error => exact .failure error
  | success trace => exact .success trace

theorem eq_of_error (h : outcome.Atomic d events) {error : DeviceError}
    (herror : outcome.1 = .error error) : outcome.2 = d := by
  cases h with
  | failure => rfl
  | success => cases herror

end Outcome.Atomic

variable (d : HostDevice)

theorem atomic_createBuffer (size : Nat) :
    (d.createBuffer size).Atomic d fun handle => [.bufferCreated handle] := by
  unfold createBuffer
  split
  case isTrue => exact .failure _
  case isFalse hsize => exact .success (.single (.bufferCreated (Nat.pos_of_ne_zero hsize)))

theorem atomic_createBufferFor (e : Element) (count : Nat) :
    (d.createBufferFor e count).Atomic d fun handle => [.bufferCreated handle] := by
  unfold createBufferFor
  split
  · exact d.atomic_createBuffer _
  · exact .failure _

theorem atomic_writeBuffer (handle : BufferHandle) (bytes : List UInt8) :
    (d.writeBuffer handle bytes).Atomic d fun _ => [.written handle.id bytes] := by
  unfold writeBuffer
  split
  case h_1 => exact .failure _
  case h_2 old hold =>
    split
    case h_1 => exact .failure _
    case h_2 changed hchanged =>
      obtain ⟨hlength, rfl⟩ := Buffers.eq_of_replace_eq_ok hchanged
      exact .success (.single (.written (Buffers.get?_of_bytes_eq_ok hold) hlength))

theorem atomic_writeElements (handle : BufferHandle) (e : Element) (words : List e.Word) :
    (d.writeElements handle e words).Atomic d fun _ => [.written handle.id (words.flatMap e.bytes)] := by
  unfold writeElements
  split
  case h_1 bytes hbytes =>
    rw [Element.encode_eq_ok hbytes]
    exact d.atomic_writeBuffer _ _
  case h_2 => exact .failure _

theorem atomic_releaseBuffer (handle : BufferHandle) :
    (d.releaseBuffer handle).Atomic d fun _ => [.bufferReleased handle.id] := by
  unfold releaseBuffer
  split
  case h_1 hfound => exact .success (.single (.bufferReleased hfound))
  case h_2 => exact .failure _

theorem atomic_createKernel (name : String) :
    (d.createKernel name).Atomic d fun handle => [.kernelCreated handle] := by
  unfold createKernel
  split
  case h_1 => exact .failure _
  case h_2 hfound => exact .success (.single (.kernelCreated hfound))

theorem atomic_setArgument (handle : KernelHandle) (index : Nat) (argument : KernelArgument) :
    (d.setArgument handle index argument).Atomic d fun _ =>
      [.argumentSet handle.id index argument] := by
  unfold setArgument
  split
  case h_1 => exact .failure _
  case h_2 => exact .failure _
  case h_3 hfound => exact .success (.single (.argumentSet index argument hfound))

theorem atomic_releaseKernel (handle : KernelHandle) :
    (d.releaseKernel handle).Atomic d fun _ => [.kernelReleased handle.id] := by
  unfold releaseKernel
  split
  case h_1 hfound => exact .success (.single (.kernelReleased hfound))
  case h_2 => exact .failure _

theorem atomic_of_view {α : Type} (result : Except DeviceError α) :
    Outcome.Atomic d (fun _ => []) (result, d) := by
  cases result with
  | error error => exact .failure error
  | ok a => exact .success .start

/-- An operation that runs no body either fails and changes nothing, or it does what its answer says. -/
theorem atomic_perform (operation : Operation) (hrun : operation.isRun = false) :
    (d.perform operation).Atomic d operation.effect := by
  cases operation with
  | createBuffer size => exact (d.atomic_createBuffer size).answer
  | createBufferFor e count => exact (d.atomic_createBufferFor e count).answer
  | writeBuffer handle bytes => exact (d.atomic_writeBuffer handle bytes).answer
  | writeElements handle e words => exact (d.atomic_writeElements handle e words).answer
  | readBuffer handle => exact d.atomic_of_view _
  | readElements handle e => exact d.atomic_of_view _
  | releaseBuffer handle => exact (d.atomic_releaseBuffer handle).answer
  | register name body => exact .success (.single (.registered name body))
  | createKernel name => exact (d.atomic_createKernel name).answer
  | setArgument handle index argument => exact (d.atomic_setArgument handle index argument).answer
  | run handle launch => cases hrun
  | releaseKernel handle => exact (d.atomic_releaseKernel handle).answer

/-! ## Runs -/

/-- A body does what its calls write. -/
theorem trace_body {α : Type} (b : Binding) (body : Access α) :
    Trace d ((body.calls b d.buffers).filterMap (Call.event? b))
      { d with buffers := (body.run b d.buffers).2 } := by
  -- over the tree, with the device free: a write hands a changed one to what follows
  induction body generalizing d with
  | finish result => exact .start
  | argument index next ih => exact ih _ d
  | scalar index e next ih => exact ih _ d
  | read index e next ih => exact ih _ d
  | write index e words next ih =>
    unfold Access.calls Access.run
    cases hwrite : d.buffers.writeAt b index e words with
    | error error => exact ih _ d
    | ok changed =>
      obtain ⟨id, old, hid, hfound, hlength, rfl⟩ := Buffers.exists_of_writeAt_eq_ok hwrite
      have hevent : Call.event? b (.write index e words (.ok ())) =
          some (.written id (words.flatMap e.bytes)) := by
        simp only [Call.event?, hid, Except.toOption, Option.map_some]
      rw [List.filterMap_cons_some hevent]
      exact (Trace.single (.written hfound hlength)).append (ih (.ok ()) _)

/-- A run does what its body writes, whether the body fails or not. -/
theorem trace_run (handle : KernelHandle) (launch : Launch) :
    Trace d (d.bodyEvents handle launch) (d.run handle launch).2 := by
  unfold bodyEvents run
  split
  case h_1 body b hprepare =>
    simp only [hprepare]
    exact d.trace_body b (body launch)
  case h_2 error hprepare =>
    simp only [hprepare]
    exact .start

/-! ## Sequences of operations -/

/-- The events of an operation that runs no body are read off its answer. -/
theorem events_of_not_isRun {operation : Operation} (hrun : operation.isRun = false) :
    d.events operation =
      match (d.perform operation).1 with
      | .ok answer => operation.effect answer
      | .error _ => [] := by
  cases operation with
  | run handle launch => cases hrun
  | _ => rfl

theorem trace_perform (operation : Operation) :
    Trace d (d.events operation) (d.perform operation).2 := by
  cases hrun : operation.isRun with
  | true =>
    cases operation with
    | run handle launch => exact d.trace_run handle launch
    | _ => cases hrun
  | false =>
    have hatomic := d.atomic_perform operation hrun
    rw [d.events_of_not_isRun hrun]
    generalize d.perform operation = outcome at hatomic
    cases hatomic with
    | failure error => exact .start
    | success trace => exact trace

/-- A sequence of operations does what its history says. -/
theorem trace_after (operations : List Operation) :
    Trace d (d.history operations) (d.after operations) := by
  induction operations generalizing d with
  | nil => exact .start
  | cons operation rest ih => exact (d.trace_perform operation).append (ih _)

end HostDevice

end PrecisionAudit
