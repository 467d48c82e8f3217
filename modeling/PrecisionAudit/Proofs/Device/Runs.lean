import Mathlib.Data.List.ReduceOption
import PrecisionAudit.Proofs.Device.History

/-!
# Runs of kernels

A run comes to the body of its kernel if the launch is possible, the kernel is there and each of its
arguments has been set. The body then sees the arguments without the gaps, and what it can change are
the bytes of the buffers among them.

## Main results

- `HostDevice.run_of_invalid`, `HostDevice.run_of_unknown`, `HostDevice.run_of_unset`,
  `HostDevice.run_of_complete`: the outcome of a run, by cases.
- `HostDevice.failed_operation_atomic`: what fails before a body is entered changes nothing.
- `HostDevice.run_frame`: what a run leaves as it was.
-/

namespace PrecisionAudit

namespace HostDevice

/-! ## Arguments -/

/-- The first argument that has not been set is the one that is missed. -/
theorem completeFrom_of_unset (name : String) (index : Nat) {arguments : List (Option KernelArgument)}
    (hunset : none ∈ arguments) :
    completeFrom name index arguments =
      .error (.missingArgument name (index + arguments.findIdx Option.isNone)) := by
  induction arguments generalizing index with
  | nil => cases hunset
  | cons first rest ih =>
    cases first with
    | none => rfl
    | some argument =>
      -- the gap is later, at one more than its position in the rest
      have hrest : none ∈ rest := by simpa using hunset
      rw [completeFrom, ih (index + 1) hrest, List.findIdx_cons]
      simp only [Option.isNone_some, cond_false, bind, Except.bind, Except.error.injEq,
        DeviceError.missingArgument.injEq, true_and]
      omega

/-- If all arguments have been set, they are what a body gets. -/
theorem completeFrom_of_complete (name : String) (index : Nat)
    {arguments : List (Option KernelArgument)} (hcomplete : none ∉ arguments) :
    completeFrom name index arguments = .ok arguments.reduceOption := by
  induction arguments generalizing index with
  | nil => rfl
  | cons first rest ih =>
    cases first with
    | none => exact absurd List.mem_cons_self hcomplete
    | some argument =>
      have hrest : none ∉ rest := fun h => hcomplete (List.mem_cons_of_mem _ h)
      rw [completeFrom, ih (index + 1) hrest, List.reduceOption_cons_of_some]
      rfl

/-! ## Outcomes -/

variable {d : HostDevice} {handle : KernelHandle} {launch : Launch} {kernel : KernelInstance}

theorem run_of_invalid {error : DeviceError} (h : launch.validate d.info = .error error) :
    d.run handle launch = (.error error, d) := by
  unfold run prepare
  rw [h]
  rfl

theorem run_of_unknown (hvalid : launch.validate d.info = .ok ())
    (h : d.kernels.get? handle.id = none) :
    d.run handle launch = (.error (.unknownKernel handle.id), d) := by
  unfold run prepare
  rw [hvalid, h]
  rfl

theorem run_of_unset (hvalid : launch.validate d.info = .ok ())
    (hfound : d.kernels.get? handle.id = some kernel) (hunset : none ∈ kernel.arguments) :
    d.run handle launch =
      (.error (.missingArgument kernel.name (kernel.arguments.findIdx Option.isNone)), d) := by
  unfold run prepare
  rw [hvalid, hfound]
  simp only [bind, Except.bind, completeFrom_of_unset kernel.name 0 hunset, Nat.zero_add]

/-- Otherwise the outcome of a run is that of the body. -/
theorem run_of_complete (hvalid : launch.validate d.info = .ok ())
    (hfound : d.kernels.get? handle.id = some kernel) (hcomplete : none ∉ kernel.arguments) :
    d.run handle launch =
      let outcome := (kernel.body launch).run ⟨handle.name, kernel.arguments.reduceOption⟩ d.buffers
      (outcome.1, { d with buffers := outcome.2 }) := by
  unfold run prepare
  rw [hvalid, hfound]
  simp only [bind, Except.bind, completeFrom_of_complete kernel.name 0 hcomplete, pure, Except.pure]

/-- What a run has found before it comes to a body. -/
theorem prepare_eq_ok_iff {body : Kernel} {b : Binding} :
    d.prepare handle launch = .ok (body, b) ↔
      launch.validate d.info = .ok () ∧ ∃ kernel, d.kernels.get? handle.id = some kernel ∧
        none ∉ kernel.arguments ∧ kernel.body = body ∧
          b = ⟨handle.name, kernel.arguments.reduceOption⟩ := by
  constructor
  · intro h
    obtain ⟨_, hvalid, h⟩ := exists_of_bind_eq_ok h
    split at h
    case h_1 => cases h
    case h_2 kernel hfound =>
      obtain ⟨arguments, hcomplete, h⟩ := exists_of_bind_eq_ok h
      cases h
      refine ⟨hvalid, kernel, hfound, ?_⟩
      by_cases hunset : none ∈ kernel.arguments
      · rw [completeFrom_of_unset kernel.name 0 hunset] at hcomplete
        cases hcomplete
      · rw [completeFrom_of_complete kernel.name 0 hunset] at hcomplete
        cases hcomplete
        exact ⟨hunset, rfl, rfl⟩
  · rintro ⟨hvalid, kernel, hfound, hcomplete, rfl, rfl⟩
    unfold prepare
    rw [hvalid, hfound]
    simp only [bind, Except.bind, completeFrom_of_complete kernel.name 0 hcomplete, pure, Except.pure]

theorem run_of_refused {error : DeviceError} (h : d.prepare handle launch = .error error) :
    d.run handle launch = (.error error, d) := by
  unfold run
  rw [h]

/-- A run comes to a body, which sees some arguments. -/
structure Executes (d : HostDevice) (handle : KernelHandle) (launch : Launch) (body : Kernel)
    (b : Binding) : Prop where
  prepared : d.prepare handle launch = .ok (body, b)
  /-- The outcome is that of the body on the buffers of the device. -/
  run_eq : d.run handle launch =
    let outcome := (body launch).run b d.buffers
    (outcome.1, { d with buffers := outcome.2 })

theorem executes_iff {body : Kernel} {b : Binding} :
    d.Executes handle launch body b ↔ d.prepare handle launch = .ok (body, b) := by
  refine ⟨Executes.prepared, fun hprepare => ⟨hprepare, ?_⟩⟩
  unfold run
  rw [hprepare]

/-! ## Failures -/

/-- An operation that runs no body changes nothing when it fails. A run changes nothing when it fails on
the launch, on the kernel or on an argument that has not been set, in this order, and otherwise it has
come to the body. -/
theorem failed_operation_atomic (d : HostDevice) :
    (∀ operation : Operation, operation.isRun = false → ∀ error,
      (d.perform operation).1 = .error error → (d.perform operation).2 = d) ∧
    ∀ (handle : KernelHandle) (launch : Launch),
      (∀ error, launch.validate d.info = .error error → d.run handle launch = (.error error, d)) ∧
      (launch.validate d.info = .ok () →
        (d.kernels.get? handle.id = none →
          d.run handle launch = (.error (.unknownKernel handle.id), d)) ∧
        ∀ kernel, d.kernels.get? handle.id = some kernel →
          (none ∈ kernel.arguments → d.run handle launch =
            (.error (.missingArgument kernel.name (kernel.arguments.findIdx Option.isNone)), d)) ∧
          (none ∉ kernel.arguments → ∃ b : Binding, d.run handle launch =
            let outcome := (kernel.body launch).run b d.buffers
            (outcome.1, { d with buffers := outcome.2 }))) := by
  constructor
  · intro operation hrun error herror
    exact (d.atomic_perform operation hrun).eq_of_error herror
  · intro handle launch
    refine ⟨fun error => run_of_invalid, fun hvalid => ⟨run_of_unknown hvalid, ?_⟩⟩
    intro kernel hfound
    exact ⟨run_of_unset hvalid hfound, fun hcomplete => ⟨_, run_of_complete hvalid hfound hcomplete⟩⟩

/-- A buffer of no bytes, and runs without work, without a kernel and without the first argument. -/
theorem failed_operation_atomic_gap :
    let d := fresh.after
      [.register "noop" fun _ => pure (), .createKernel "noop", .setArgument ⟨1, "noop"⟩ 1 (.int32 7)]
    (d.perform (.createBuffer 0)).2 = d ∧
      d.run ⟨1, "noop"⟩ (.line 0) =
        (.error (.invalidConfig "Global work size [0, 1, 1] is empty"), d) ∧
      d.run ⟨2, "noop"⟩ (.line 4) = (.error (.unknownKernel 2), d) ∧
      d.run ⟨1, "noop"⟩ (.line 4) = (.error (.missingArgument "noop" 0), d) := by
  intro d
  obtain ⟨hfailed, hrun⟩ := failed_operation_atomic d
  have hgap : none ∈ [none, some (KernelArgument.int32 7)] := List.mem_cons_self
  have hunknown := ((hrun ⟨2, "noop"⟩ (.line 4)).2 rfl).1
  have hunset := ((hrun ⟨1, "noop"⟩ (.line 4)).2 rfl).2 ⟨"noop", fun _ => pure (), _⟩ rfl
  exact ⟨hfailed (.createBuffer 0) rfl _ rfl, (hrun _ (.line 0)).1 _ rfl, hunknown rfl,
    hunset.1 hgap⟩

/-! ## Frame -/

/-- Whether a buffer is among the arguments of a kernel. -/
def Bound (d : HostDevice) (handle : KernelHandle) (id : Nat) : Prop :=
  ∃ kernel, d.kernels.get? handle.id = some kernel ∧
    ∃ buffer : BufferHandle, some (.buffer buffer) ∈ kernel.arguments ∧ buffer.id = id

/-- What a body can reach is among the arguments of its kernel. -/
theorem bound_of_binds (hfound : d.kernels.get? handle.id = some kernel) {b : Binding}
    (harguments : b.arguments = kernel.arguments.reduceOption) {id : Nat} (h : b.Binds id) :
    d.Bound handle id := by
  obtain ⟨index, hindex⟩ := h
  obtain ⟨buffer, hbuffer, hid⟩ := (Binding.buffer_eq_ok_iff _ _ _).1 hindex
  rw [harguments] at hbuffer
  have hmem := List.mem_of_getElem? hbuffer
  exact ⟨kernel, hfound, buffer, List.reduceOption_mem_iff.1 hmem, hid⟩

theorem bound_of_prepare {body : Kernel} {b : Binding} (h : d.prepare handle launch = .ok (body, b))
    {id : Nat} (hbinds : b.Binds id) : d.Bound handle id := by
  obtain ⟨-, kernel, hfound, -, -, rfl⟩ := prepare_eq_ok_iff.1 h
  exact bound_of_binds hfound rfl hbinds

/-- A run, whatever its outcome, changes at most the bytes of the buffers among the arguments of its
kernel, and no length. Within a body, a write that fails changes nothing at all, and a write that succeeds
replaces the bytes of the buffer that is bound; what follows goes on from there. -/
theorem run_frame (d : HostDevice) (handle : KernelHandle) (launch : Launch) :
    (∃ result buffers, d.run handle launch = (result, { d with buffers := buffers }) ∧
      d.buffers.AgreeOutside (d.Bound handle) buffers) ∧
    ∀ (b : Binding) (buffers : Buffers) (index : Nat) (e : Element) (words : List e.Word),
      ∃ outcome changed, (Access.putElements index e words).run b buffers = (outcome, changed) ∧
        (∀ error, outcome = .error error → changed = buffers) ∧
        (outcome = .ok () → ∃ id, b.buffer index = .ok id ∧
          changed = Keyed.set id (words.flatMap e.bytes) buffers) ∧
        ∀ next : Except DeviceError Unit → Access Unit,
          (Access.write index e words next).run b buffers = (next outcome).run b changed := by
  refine ⟨?_, fun b buffers index e words => Access.run_putElements b buffers index e words⟩
  -- the cases in the order in which a run looks at them; only the last one reaches the body
  cases hvalid : launch.validate d.info with
  | error error => exact ⟨_, _, run_of_invalid hvalid, .refl _ _⟩
  | ok =>
    cases hfound : d.kernels.get? handle.id with
    | none => exact ⟨_, _, run_of_unknown hvalid hfound, .refl _ _⟩
    | some kernel =>
      by_cases hunset : none ∈ kernel.arguments
      · exact ⟨_, _, run_of_unset hvalid hfound hunset, .refl _ _⟩
      · refine ⟨_, _, run_of_complete hvalid hfound hunset, ?_⟩
        exact (Access.agreeOutside_run _ _ _).mono fun _ => bound_of_binds hfound rfl

/-- A body writes to its first buffer, is refused a write to a second one and fails; a buffer that is not
bound keeps its bytes. -/
theorem run_frame_failed_body :
    let d := fresh.after
      [.createBuffer 2, .createBuffer 2, .writeBuffer ⟨2, 2⟩ [5, 6],
        .register "set" fun _ => do
          Access.putElements 0 .uint8 [7, 8]
          Access.putElements 1 .uint8 [9],
        .createKernel "set", .setArgument ⟨3, "set"⟩ 0 (.buffer ⟨1, 2⟩)]
    (d.run ⟨3, "set"⟩ (.line 1)).1 = .error (.missingArgument "set" 1) ∧
      (d.run ⟨3, "set"⟩ (.line 1)).2.buffers.get? 2 = some [5, 6] := by
  intro d
  refine ⟨rfl, ?_⟩
  obtain ⟨⟨result, buffers, hrun, hagree⟩, -⟩ := run_frame d ⟨3, "set"⟩ (.line 1)
  rw [hrun]
  refine hagree.others 2 ?_
  rintro ⟨kernel, hkernel, buffer, hbuffer, hid⟩
  cases hkernel
  cases List.mem_singleton.1 hbuffer
  cases hid

end HostDevice

end PrecisionAudit
