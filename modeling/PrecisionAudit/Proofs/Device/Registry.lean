import Mathlib.Data.List.Nodup
import PrecisionAudit.Proofs.Device.Arguments

/-!
# Registered kernels

Bodies are registered by name, and a kernel is made from the body that its name has at that time. What is
registered later goes to kernels that are made later: a kernel keeps its body as long as it lives, and its
number, which is not given out again, never leads to another body.

## Main results

- `HostDevice.Trace.get?_registry`: the registry holds the latest registration of each name.
- `HostDevice.Trace.inFirstOrder_kernelNames`: the names of a device, in order.
- `HostDevice.Trace.body_eq`: a kernel keeps its body.
- `HostDevice.kernels_boundAtCreation`: creation and runs of kernels after any operations.
-/

namespace PrecisionAudit

/-! ## Order of first occurrence -/

/-- What occurs in a list, listed once, in the order of the first occurrences. -/
structure InFirstOrder {α : Type} [DecidableEq α] (items all : List α) : Prop where
  mem_iff : ∀ item, item ∈ items ↔ item ∈ all
  nodup : items.Nodup
  order : items.Pairwise fun a b => all.idxOf a < all.idxOf b

namespace InFirstOrder

variable {α : Type} [DecidableEq α] {items all : List α}

/-- One more occurrence is listed at the end, unless it is not the first one. -/
theorem concat (h : InFirstOrder items all) (item : α) :
    InFirstOrder (if item ∈ items then items else items ++ [item]) (all ++ [item]) := by
  -- what has occurred already stays at its place
  have hplace {a : α} (ha : a ∈ items) : (all ++ [item]).idxOf a = all.idxOf a :=
    List.idxOf_append_of_mem ((h.mem_iff a).1 ha)
  have horder : items.Pairwise fun a b => (all ++ [item]).idxOf a < (all ++ [item]).idxOf b := by
    refine h.order.imp_of_mem fun ha hb hlt => ?_
    rwa [hplace ha, hplace hb]
  split
  case isTrue hmem =>
    refine ⟨fun a => ?_, h.nodup, horder⟩
    rw [List.mem_append, List.mem_singleton, h.mem_iff, or_iff_left_of_imp]
    rintro rfl
    exact (h.mem_iff _).1 hmem
  case isFalse hmem =>
    have hall : item ∉ all := fun h' => hmem ((h.mem_iff item).2 h')
    refine ⟨fun a => ?_, ?_, ?_⟩
    · rw [List.mem_append, List.mem_append, h.mem_iff]
    · rw [← List.concat_eq_append]
      exact h.nodup.concat hmem
    · rw [List.pairwise_append]
      refine ⟨horder, List.pairwise_singleton _ _, fun a ha b hb => ?_⟩
      rw [List.mem_singleton.1 hb, hplace ha, List.idxOf_append_of_notMem hall]
      have hlt : all.idxOf a < all.length := List.idxOf_lt_length_iff.2 ((h.mem_iff a).1 ha)
      omega

end InFirstOrder

/-! ## Registrations -/

/-- The body that is registered under a name. -/
def Event.registeredAs? (name : String) : Event → Option Kernel
  | registered target body => if target = name then some body else none
  | _ => none

def Event.registeredName? : Event → Option String
  | registered name _ => some name
  | _ => none

/-- The body that has been registered last under a name. -/
def latestRegistration (name : String) (history : List Event) : Option Kernel :=
  latest (Event.registeredAs? name) history

/-- The names that have been registered, each as often as it has been. -/
def registrations (history : List Event) : List String :=
  history.filterMap Event.registeredName?

theorem latestRegistration_concat (name : String) (history : List Event) (event : Event) :
    latestRegistration name (history ++ [event]) =
      (event.registeredAs? name).or (latestRegistration name history) := by
  rw [latestRegistration, latest_append, latest_singleton]
  rfl

theorem Event.registeredAs?_eq_some_iff {name : String} {event : Event} {body : Kernel} :
    event.registeredAs? name = some body ↔ event = .registered name body := by
  cases event with
  | registered target other =>
    rw [registeredAs?]
    split
    case isTrue h =>
      subst h
      simp
    case isFalse h =>
      simp only [reduceCtorEq, registered.injEq, false_iff]
      exact fun hsame => h hsame.1
  | _ => simp [registeredAs?]

theorem exists_latestRegistration_iff {name : String} {history : List Event} :
    (∃ body, latestRegistration name history = some body) ↔ ∃ body, .registered name body ∈ history := by
  rw [← Option.ne_none_iff_exists', latestRegistration, latest_ne_none_iff]
  simp only [Event.registeredAs?_eq_some_iff, exists_eq_right]

namespace HostDevice

namespace Trace

variable {history : List Event} {d : HostDevice}

theorem get?_registry (trace : Trace fresh history d) (name : String) :
    d.registry.get? name = latestRegistration name history := by
  induction trace with
  | start => rfl
  | step _ transition ih =>
    rw [latestRegistration_concat, ← ih]
    cases transition with
    | registered target body =>
      rw [Keyed.get?_set, Event.registeredAs?]
      split <;> rfl
    | _ => rfl

/-- The names of a device are those that have been registered, in the order of their first registration. -/
theorem inFirstOrder_kernelNames (trace : Trace fresh history d) :
    InFirstOrder d.kernelNames (registrations history) := by
  induction trace with
  | start => exact ⟨fun _ => Iff.rfl, List.nodup_nil, .nil⟩
  | @step events event d d' _ transition ih =>
    rw [registrations, List.filterMap_append]
    cases transition with
    | registered name body =>
      have h := ih.concat name
      rwa [kernelNames, ← Keyed.keys_set] at h
    | _ =>
      rw [List.filterMap_cons_none rfl, List.filterMap_nil, List.append_nil]
      exact ih

end Trace

/-! ## What later events leave -/

section Later

variable {start d : HostDevice} {events : List Event}

/-- Names are added at the end only. -/
theorem Transition.kernelNames_grow {d d' : HostDevice} {event : Event}
    (transition : Transition d event d') : d.kernelNames <+: d'.kernelNames := by
  cases transition with
  | registered name body =>
    show d.registry.keys <+: (d.registry.set name body).keys
    rw [Keyed.keys_set]
    split
    · exact List.prefix_refl _
    · exact List.prefix_append _ _
  | _ => exact List.prefix_refl _

theorem Trace.kernelNames_grow (trace : Trace start events d) :
    start.kernelNames <+: d.kernelNames := by
  induction trace with
  | start => exact List.prefix_refl _
  | step _ transition ih => exact ih.trans transition.kernelNames_grow

theorem Trace.nextId_le (trace : Trace start events d) : start.nextId ≤ d.nextId := by
  induction trace with
  | start => exact Nat.le_refl _
  | step _ transition ih =>
    cases transition with
    | bufferCreated => exact Nat.le_succ_of_le ih
    | kernelCreated => exact Nat.le_succ_of_le ih
    | _ => exact ih

variable {id : Nat} {kernel kernel' : KernelInstance}

/-- A kernel stays as long as it is not released. -/
theorem Trace.exists_later_kernel (trace : Trace start events d)
    (hstart : start.kernels.get? id = some kernel) (hlive : .kernelReleased id ∉ events) :
    ∃ kernel', d.kernels.get? id = some kernel' := by
  induction trace with
  | start => exact ⟨kernel, hstart⟩
  | step _ transition ih =>
    rw [List.mem_append, List.mem_singleton, not_or] at hlive
    obtain ⟨kernel', hfound⟩ := ih hlive.1
    exact transition.exists_kernel hfound fun h => hlive.2 h.symm

/-- A kernel keeps its body. -/
theorem Trace.body_eq (trace : Trace start events d) (hid : id < start.nextId)
    (hstart : start.kernels.get? id = some kernel) (hfound : d.kernels.get? id = some kernel') :
    kernel'.body = kernel.body := by
  induction trace generalizing kernel' with
  | start =>
    cases hstart.symm.trans hfound
    rfl
  | step trace transition ih =>
    cases transition.kernelOrigin hfound with
    | kept hbefore _ => exact ih hbefore
    | created hnew _ _ =>
      -- the number has been given out already
      have hle := trace.nextId_le
      omega
    | bound hbefore _ =>
      have hbody := ih hbefore
      exact hbody

end Later

/-! ## Creation -/

/-- A kernel is made from the body that is registered under its name, and has the next number. -/
theorem createKernel_eq_ok_iff {d d' : HostDevice} {name : String} {handle : KernelHandle} :
    d.createKernel name = (.ok handle, d') ↔
      ∃ body, d.registry.get? name = some body ∧ handle = ⟨d.nextId, name⟩ ∧
        d' = { d with
          kernels := d.kernels ++ [(d.nextId, ⟨name, body, []⟩)]
          nextId := d.nextId + 1 } := by
  unfold createKernel
  cases d.registry.get? name with
  | none => simp
  | some body => simp [eq_comm]

/-- A new kernel is found under its number, with the body of its name. -/
theorem Trace.get?_createKernel {history : List Event} {d d' : HostDevice} (trace : Trace fresh history d)
    {name : String} {handle : KernelHandle} (hcreated : d.createKernel name = (.ok handle, d')) :
    ∃ body, latestRegistration name history = some body ∧
      d'.kernels.get? handle.id = some ⟨name, body, []⟩ ∧ handle.id < d'.nextId := by
  obtain ⟨body, hbody, rfl, rfl⟩ := createKernel_eq_ok_iff.1 hcreated
  refine ⟨body, (trace.get?_registry name).symm.trans hbody, ?_, Nat.lt_succ_self _⟩
  rw [Keyed.get?_append, trace.kernel_absent_nextId, Option.none_or, Keyed.get?_cons, if_pos rfl]

/-- After any operations, a kernel can be made under exactly the names that have been registered. From then
on it keeps the body that was registered last under its name, whatever happens later, until it is released;
each of its runs is refused before any body is entered, or comes to that one. The names are listed once, in
the order of their first registration, and stay where they are. -/
theorem kernels_boundAtCreation (operations : List Operation) (name : String) :
    let history := fresh.history operations
    let d := fresh.after operations
    ((∃ handle d', d.createKernel name = (.ok handle, d')) ↔ ∃ body, .registered name body ∈ history) ∧
    (∀ handle d', d.createKernel name = (.ok handle, d') →
      ∃ body, latestRegistration name history = some body ∧ ∀ later : List Operation,
        (.kernelReleased handle.id ∉ d'.history later →
          ∃ kernel, (d'.after later).kernels.get? handle.id = some kernel ∧ kernel.body = body) ∧
        ∀ launch, (∃ error, (d'.after later).prepare handle launch = .error error ∧
            (d'.after later).run handle launch = (.error error, d'.after later)) ∨
          ∃ b, (d'.after later).Executes handle launch body b) ∧
    InFirstOrder d.kernelNames (registrations history) ∧
    ∀ later : List Operation, d.kernelNames <+: (d.after later).kernelNames := by
  intro history d
  have trace : Trace fresh history d := fresh.trace_after operations
  refine ⟨?_, ?_, trace.inFirstOrder_kernelNames, fun later => (d.trace_after later).kernelNames_grow⟩
  · rw [← exists_latestRegistration_iff, ← trace.get?_registry]
    simp [createKernel_eq_ok_iff]
  · intro handle d' hcreated
    obtain ⟨body, hbody, hnew, hid⟩ := trace.get?_createKernel hcreated
    refine ⟨body, hbody, fun later => ?_⟩
    have laterTrace := d'.trace_after later
    constructor
    · intro hlive
      obtain ⟨kernel, hfound⟩ := laterTrace.exists_later_kernel hnew hlive
      exact ⟨kernel, hfound, laterTrace.body_eq hid hnew hfound⟩
    · intro launch
      cases hprepare : (d'.after later).prepare handle launch with
      | error error => exact .inl ⟨error, rfl, run_of_refused hprepare⟩
      | ok prepared =>
        obtain ⟨-, kernel, hfound, -, hkernel, -⟩ := prepare_eq_ok_iff.1 hprepare
        have hsame : prepared.1 = body := hkernel.symm.trans (laterTrace.body_eq hid hnew hfound)
        exact .inr ⟨prepared.2, executes_iff.2 (hsame ▸ hprepare)⟩

/-- Two kernels of one name, made before and after another body is registered under it. -/
theorem kernels_boundAtCreation_reregistered :
    let fails (reason : String) : Kernel := fun _ => Access.fail (.launchFailed reason)
    let d := fresh.after
      [.register "k" (fails "first"), .register "j" (fails "other"), .register "k" (fails "second")]
    let later := [.register "k" (fails "third"), .createKernel "k"]
    d.kernelNames.Nodup ∧ d.kernelNames = ["k", "j"] ∧
      ((d.createKernel "k").2.after later).run ⟨1, "k"⟩ (.line 1) =
        (.error (.launchFailed "second"), (d.createKernel "k").2.after later) ∧
      ((d.createKernel "k").2.after later).run ⟨2, "k"⟩ (.line 1) =
        (.error (.launchFailed "third"), (d.createKernel "k").2.after later) := by
  intro fails d later
  obtain ⟨-, hbound, hnames, -⟩ := kernels_boundAtCreation
    [.register "k" (fails "first"), .register "j" (fails "other"), .register "k" (fails "second")] "k"
  obtain ⟨body, hbody, hlater⟩ := hbound ⟨1, "k"⟩ (d.createKernel "k").2 rfl
  cases hbody
  rcases (hlater later).2 (.line 1) with ⟨error, hrefused, -⟩ | ⟨b, hexecutes⟩
  · cases hrefused
  · exact ⟨hnames.nodup, rfl, hexecutes.run_eq, rfl⟩

end HostDevice

end PrecisionAudit
