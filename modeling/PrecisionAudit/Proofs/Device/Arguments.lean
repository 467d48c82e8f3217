import Mathlib.Order.Bounds.Basic
import PrecisionAudit.Proofs.Device.Handles
import PrecisionAudit.Proofs.Device.Runs

/-!
# Arguments of kernels

A kernel stores its arguments by position, with gaps for positions that have been passed over. To its
callers that is a map: the latest argument of each position counts, and a run refuses to start as long as
a position is empty below one that is not.

## Layers

1. lists with gaps: what `HostDevice.bindArgument` does to a look-up, and where the first gap is;
2. `Stores`: the agreement of such a list with the history of a kernel, kept by every transition;
3. runs: what a body finds, and which position is missed.

## Main results

- `HostDevice.Trace.stores_arguments`: a live kernel stores the latest arguments.
- `HostDevice.argument_of_setArgument`: what has just been bound is what a body finds.
- `HostDevice.run_missesLeastGap`: runs of a kernel after any operations.
-/

namespace PrecisionAudit

/-! ## Lists with gaps -/

section Gaps

variable {α : Type} {entries : List (Option α)}

/-- A list without gaps consists of what is left when gaps are taken out. -/
theorem map_some_reduceOption (hcomplete : none ∉ entries) :
    entries.reduceOption.map some = entries := by
  induction entries with
  | nil => rfl
  | cons first rest ih =>
    cases first with
    | none => exact absurd List.mem_cons_self hcomplete
    | some a =>
      have hrest : none ∉ rest := fun h => hcomplete (List.mem_cons_of_mem _ h)
      rw [List.reduceOption_cons_of_some, List.map_cons, ih hrest]

theorem getElem?_reduceOption (hcomplete : none ∉ entries) (index : ℕ) :
    entries.reduceOption[index]? = entries[index]?.join := by
  conv_rhs => rw [← map_some_reduceOption hcomplete]
  rw [List.getElem?_map]
  cases entries.reduceOption[index]? <;> rfl

/-- A position without an entry is a gap or lies past the end. -/
theorem join_getElem?_eq_none_iff (entries : List (Option α)) (index : ℕ) :
    entries[index]?.join = none ↔ entries[index]? = some none ∨ entries.length ≤ index := by
  rw [← List.getElem?_eq_none_iff]
  cases entries[index]? with
  | none => simp
  | some entry => simp

/-- The first gap has no entry, and each position before it has one. -/
theorem isLeast_findIdx_isNone (hunset : none ∈ entries) :
    IsLeast {index | entries[index]?.join = none} (entries.findIdx Option.isNone) := by
  have hlt : entries.findIdx Option.isNone < entries.length :=
    List.findIdx_lt_length.2 ⟨none, hunset, rfl⟩
  constructor
  · have hgap := List.findIdx_getElem (w := hlt)
    rw [Set.mem_ofPred_eq, List.getElem?_eq_getElem hlt, Option.isNone_iff_eq_none.1 hgap]
    rfl
  · intro index hindex
    by_contra hbefore
    have hbefore := Nat.lt_of_not_le hbefore
    have hentry := List.not_of_lt_findIdx hbefore
    rw [Set.mem_ofPred_eq, List.getElem?_eq_getElem (hbefore.trans hlt)] at hindex
    simp [show entries[index] = none from hindex] at hentry

end Gaps

namespace HostDevice

variable (arguments : List (Option KernelArgument)) (index : ℕ) (argument : KernelArgument)

theorem length_bindArgument :
    (bindArgument arguments index argument).length = max arguments.length (index + 1) := by
  simp only [bindArgument, List.length_set, List.length_append, List.length_replicate]
  omega

/-- Binding an argument changes what is found at its position and nowhere else. -/
theorem join_getElem?_bindArgument (position : ℕ) :
    (bindArgument arguments index argument)[position]?.join =
      if position = index then some argument else arguments[position]?.join := by
  unfold bindArgument
  by_cases h : position = index
  · subst h
    rw [if_pos rfl, List.getElem?_set_self (by simp; omega)]
    rfl
  · rw [if_neg h, List.getElem?_set_ne (Ne.symm h)]
    rcases Nat.lt_or_ge position arguments.length with hlt | hge
    · rw [List.getElem?_append_left hlt]
    · -- past the old end there are only gaps
      rw [List.getElem?_append_right hge, List.getElem?_eq_none hge, List.getElem?_replicate]
      split <;> rfl

end HostDevice

/-! ## Arguments that have been bound -/

/-- The argument that is bound at a position of a kernel. -/
def Event.argumentAt? (id index : ℕ) : Event → Option KernelArgument
  | argumentSet target position argument =>
    if target = id ∧ position = index then some argument else none
  | _ => none

/-- The argument that has been bound last at a position of a kernel. -/
def latestArgument (id index : ℕ) (history : List Event) : Option KernelArgument :=
  latest (Event.argumentAt? id index) history

/-- The positions of a kernel at which arguments have been bound. -/
def boundPositions (id : ℕ) (history : List Event) : Set ℕ :=
  { index | ∃ argument, .argumentSet id index argument ∈ history }

/-- Whether all positions up to the largest one are there. -/
def Gapless (positions : Set ℕ) : Prop :=
  ∀ largest, IsGreatest positions largest → ∀ index < largest, index ∈ positions

theorem Event.argumentAt?_eq_some_iff {id index : ℕ} {event : Event} {argument : KernelArgument} :
    event.argumentAt? id index = some argument ↔ event = .argumentSet id index argument := by
  cases event with
  | argumentSet target position bound =>
    rw [argumentAt?]
    split
    case isTrue h =>
      obtain ⟨rfl, rfl⟩ := h
      simp
    case isFalse h =>
      simp only [reduceCtorEq, argumentSet.injEq, false_iff]
      rintro ⟨rfl, rfl, -⟩
      exact h ⟨rfl, rfl⟩
  | _ => simp [argumentAt?]

theorem mem_boundPositions_iff {id index : ℕ} {history : List Event} :
    index ∈ boundPositions id history ↔ latestArgument id index history ≠ none := by
  rw [latestArgument, latest_ne_none_iff]
  simp only [Event.argumentAt?_eq_some_iff, exists_eq_right]
  exact Iff.rfl

/-- A list with gaps that stands for what has been bound to a kernel. -/
structure Stores (history : List Event) (id : ℕ) (arguments : List (Option KernelArgument)) : Prop where
  /-- What is found at a position is what has been bound there last. -/
  found : ∀ index, arguments[index]?.join = latestArgument id index history
  /-- The list is no longer than it has to be. -/
  ends : ∀ index, arguments.length = index + 1 → index ∈ boundPositions id history

namespace Stores

variable {history : List Event} {id : ℕ} {arguments : List (Option KernelArgument)}

theorem mem_boundPositions_iff (stores : Stores history id arguments) {index : ℕ} :
    index ∈ boundPositions id history ↔ arguments[index]?.join ≠ none := by
  rw [stores.found, PrecisionAudit.mem_boundPositions_iff]

theorem lt_length (stores : Stores history id arguments) {index : ℕ}
    (h : index ∈ boundPositions id history) : index < arguments.length := by
  rw [stores.mem_boundPositions_iff, Ne, join_getElem?_eq_none_iff, not_or] at h
  exact Nat.lt_of_not_le h.2

/-- The list has a gap where a position is missing below the largest one. -/
theorem gapless_iff (stores : Stores history id arguments) :
    Gapless (boundPositions id history) ↔ none ∉ arguments := by
  constructor
  · intro hgapless hunset
    obtain ⟨index, hindex⟩ := List.mem_iff_getElem?.1 hunset
    obtain ⟨hlt, -⟩ := List.getElem?_eq_some_iff.1 hindex
    -- the end of the list is the largest position, and the gap is not there
    obtain ⟨largest, hlargest⟩ : ∃ largest, arguments.length = largest + 1 :=
      Nat.exists_eq_succ_of_ne_zero (Nat.ne_zero_of_lt hlt)
    have hgreatest : IsGreatest (boundPositions id history) largest :=
      ⟨stores.ends largest hlargest, fun other hother => by
        have := stores.lt_length hother
        omega⟩
    have hnot : index ∉ boundPositions id history := by
      rw [stores.mem_boundPositions_iff, hindex]
      simp
    rcases Nat.lt_or_eq_of_le (show index ≤ largest by omega) with hbelow | rfl
    · exact hnot (hgapless largest hgreatest index hbelow)
    · exact hnot hgreatest.1
  · intro hcomplete largest hgreatest index hbelow
    have hlt := hbelow.trans (stores.lt_length hgreatest.1)
    rw [stores.mem_boundPositions_iff, Ne, join_getElem?_eq_none_iff, not_or]
    exact ⟨fun hgap => hcomplete (List.mem_of_getElem? hgap), Nat.not_le.2 hlt⟩

/-- The first gap of the list is the least position at which nothing has been bound. -/
theorem isLeast_compl (stores : Stores history id arguments) (hunset : none ∈ arguments) :
    IsLeast (boundPositions id history)ᶜ (arguments.findIdx Option.isNone) := by
  have hcompl : (boundPositions id history)ᶜ = {index | arguments[index]?.join = none} := by
    ext index
    rw [Set.mem_compl_iff, stores.mem_boundPositions_iff, not_not, Set.mem_ofPred_eq]
  rw [hcompl]
  exact isLeast_findIdx_isNone hunset

end Stores

section Lookup

variable {b : Binding} {index : ℕ} {argument : KernelArgument}

theorem Binding.argument_of_some (h : b.arguments[index]? = some argument) :
    b.argument index = .ok argument := by
  rw [Binding.argument, h]

theorem Binding.argument_of_none (h : b.arguments[index]? = none) :
    b.argument index = .error (.missingArgument b.kernel index) := by
  rw [Binding.argument, h]

end Lookup

namespace HostDevice

/-! ## Live kernels -/

/-- A kernel stays until it is released. -/
theorem Transition.exists_kernel {d d' : HostDevice} {event : Event} (transition : Transition d event d')
    {id : ℕ} {kernel : KernelInstance} (hfound : d.kernels.get? id = some kernel)
    (hlive : event ≠ .kernelReleased id) : ∃ kernel', d'.kernels.get? id = some kernel' := by
  cases transition with
  | kernelCreated => exact ⟨kernel, by rw [Keyed.get?_append, hfound]; rfl⟩
  | argumentSet =>
    rw [Keyed.get?_set]
    split
    · exact ⟨_, rfl⟩
    · exact ⟨kernel, hfound⟩
  | @kernelReleased target =>
    have hne : target ≠ id := fun h => hlive (h ▸ rfl)
    exact ⟨kernel, by rw [Keyed.get?_erase, if_neg hne, hfound]⟩
  | _ => exact ⟨kernel, hfound⟩

namespace Trace

variable {history : List Event} {d : HostDevice} {handle : KernelHandle} {kernel : KernelInstance}

theorem exists_kernel (trace : Trace fresh history d) (hcreated : .kernelCreated handle ∈ history)
    (hlive : .kernelReleased handle.id ∉ history) : ∃ kernel, d.kernels.get? handle.id = some kernel := by
  induction trace with
  | start => cases hcreated
  | @step events event d d' trace transition ih =>
    rw [List.mem_append, List.mem_singleton, not_or] at hlive
    rcases List.mem_append.1 hcreated with hbefore | hnow
    · obtain ⟨kernel, hfound⟩ := ih hbefore hlive.1
      exact transition.exists_kernel hfound fun h => hlive.2 h.symm
    · -- a new kernel is found under its number, which nothing has had before
      cases List.mem_singleton.1 hnow
      cases transition with
      | kernelCreated =>
        rw [Keyed.get?_append, trace.kernel_absent_nextId, Option.none_or, Keyed.get?_cons, if_pos rfl]
        exact ⟨_, rfl⟩

/-- A kernel has the name that its handle says. -/
theorem name_eq (trace : Trace fresh history d) (hcreated : .kernelCreated handle ∈ history)
    (hfound : d.kernels.get? handle.id = some kernel) : kernel.name = handle.name := by
  obtain ⟨other, hother, hid, hname⟩ := trace.exists_kernelCreated hfound
  cases eq_of_issued?_eq trace.issued_nodup hother hcreated (congrArg some hid) rfl
  exact hname

/-- A live kernel stores the latest arguments. -/
theorem stores_arguments (trace : Trace fresh history d) {id : ℕ}
    (hfound : d.kernels.get? id = some kernel) : Stores history id kernel.arguments := by
  -- over the history; the kernel is free, since the binding of an argument replaces it
  induction trace generalizing kernel with
  | start => cases hfound
  | @step events event d d' trace transition ih =>
    have hlatest (index : ℕ) : latestArgument id index (events ++ [event]) =
        (event.argumentAt? id index).or (latestArgument id index events) := by
      rw [latestArgument, latest_append, latest_singleton]
      rfl
    cases transition.kernelOrigin hfound with
    | kept hbefore hother =>
      have hnone (index : ℕ) : event.argumentAt? id index = none :=
        Option.eq_none_iff_forall_ne_some.2 fun argument h =>
          hother index argument (Event.argumentAt?_eq_some_iff.1 h)
      refine ⟨fun index => ?_, fun index hindex => ?_⟩
      · rw [hlatest, hnone, Option.none_or, (ih hbefore).found]
      · obtain ⟨argument, hbound⟩ := (ih hbefore).ends index hindex
        exact ⟨argument, List.mem_append_left _ hbound⟩
    | created hid hevent _ =>
      -- nothing can have been bound to a number that has just been given out
      have hnone (index : ℕ) : latestArgument id index (events ++ [event]) = none := by
        refine latest_eq_none_iff.2 fun old hold => Option.eq_none_iff_forall_ne_some.2 ?_
        intro argument h
        rw [Event.argumentAt?_eq_some_iff] at h
        subst h
        rcases List.mem_append.1 hold with hold | hold
        · exact trace.number?_ne_nextId hold (congrArg some hid)
        · cases (List.mem_singleton.1 hold).trans hevent
      exact ⟨fun index => (hnone index).symm, fun index hindex => by cases hindex⟩
    | @bound old index argument hbefore hevent =>
      subst hevent
      refine ⟨fun position => ?_, fun position hposition => ?_⟩
      · rw [join_getElem?_bindArgument, hlatest, Event.argumentAt?, (ih hbefore).found]
        by_cases h : position = index
        · simp [h]
        · simp [h, Ne.symm h]
      · -- the list ends where it ended before or at the new position
        rw [length_bindArgument] at hposition
        by_cases h : position = index
        · exact ⟨argument, List.mem_append_right _ (by simp [h])⟩
        · obtain ⟨earlier, hbound⟩ := (ih hbefore).ends position (by omega)
          exact ⟨earlier, List.mem_append_left _ hbound⟩

end Trace

/-! ## Runs -/

variable {d : HostDevice} {handle : KernelHandle} {launch : Launch} {body : Kernel} {b : Binding}

/-- What has just been bound is what a body finds. -/
theorem argument_of_setArgument {d' : HostDevice} {index : ℕ} {argument : KernelArgument}
    (hset : d.setArgument handle index argument = (.ok (), d'))
    (hprepare : d'.prepare handle launch = .ok (body, b)) : b.argument index = .ok argument := by
  unfold setArgument at hset
  split at hset
  case h_1 => cases hset
  case h_2 => cases hset
  case h_3 =>
    cases hset
    obtain ⟨-, kernel, hfound, hcomplete, -, rfl⟩ := prepare_eq_ok_iff.1 hprepare
    rw [Keyed.get?_set, if_pos rfl] at hfound
    cases hfound
    refine Binding.argument_of_some ?_
    rw [getElem?_reduceOption hcomplete, join_getElem?_bindArgument, if_pos rfl]

/-- After any operations, a run refuses an impossible launch before a kernel that is not there, and that
before a missing argument. A live kernel comes to its body if no position is empty below the largest one
at which an argument has been bound. Its body then finds the latest argument of each position and misses
all others; otherwise the least empty position is missed. -/
theorem run_missesLeastGap (operations : List Operation) (handle : KernelHandle) (launch : Launch) :
    let history := fresh.history operations
    let d := fresh.after operations
    (∀ error, launch.validate d.info = .error error → d.run handle launch = (.error error, d)) ∧
    (launch.validate d.info = .ok () → d.kernels.get? handle.id = none →
      d.run handle launch = (.error (.unknownKernel handle.id), d)) ∧
    (launch.validate d.info = .ok () → .kernelCreated handle ∈ history →
      .kernelReleased handle.id ∉ history →
        ((∃ body b, d.Executes handle launch body b) ↔ Gapless (boundPositions handle.id history)) ∧
        (∀ body b, d.Executes handle launch body b → ∀ index, b.argument index =
          match latestArgument handle.id index history with
          | some argument => .ok argument
          | none => .error (.missingArgument handle.name index)) ∧
        (¬ Gapless (boundPositions handle.id history) →
          ∃ index, IsLeast (boundPositions handle.id history)ᶜ index ∧
            d.run handle launch = (.error (.missingArgument handle.name index), d))) := by
  intro history d
  refine ⟨fun error => run_of_invalid, run_of_unknown, fun hvalid hcreated hlive => ?_⟩
  have trace : Trace fresh history d := fresh.trace_after operations
  obtain ⟨kernel, hfound⟩ := trace.exists_kernel hcreated hlive
  have hname := trace.name_eq hcreated hfound
  have stores := trace.stores_arguments hfound
  refine ⟨?_, ?_, ?_⟩
  · rw [stores.gapless_iff]
    constructor
    · rintro ⟨body, b, hexecutes⟩
      obtain ⟨-, other, hother, hcomplete, -⟩ := prepare_eq_ok_iff.1 hexecutes.prepared
      cases hfound.symm.trans hother
      exact hcomplete
    · intro hcomplete
      exact ⟨_, _, executes_iff.2 (prepare_eq_ok_iff.2 ⟨hvalid, kernel, hfound, hcomplete, rfl, rfl⟩)⟩
  · intro body b hexecutes index
    obtain ⟨-, other, hother, hcomplete, -, rfl⟩ := prepare_eq_ok_iff.1 hexecutes.prepared
    cases hfound.symm.trans hother
    have hlook := (getElem?_reduceOption hcomplete index).trans (stores.found index)
    cases hlatest : latestArgument handle.id index history with
    | none => exact Binding.argument_of_none (hlook.trans hlatest)
    | some argument => exact Binding.argument_of_some (hlook.trans hlatest)
  · intro hgap
    rw [stores.gapless_iff, not_not] at hgap
    refine ⟨_, stores.isLeast_compl hgap, ?_⟩
    rw [run_of_unset hvalid hfound hgap, hname]

/-- The second argument is bound, and the first one only of another kernel, since the buffer that was to be
the first one is not there. When both are bound, the second one twice, the kernel runs. -/
theorem run_missesLeastGap_rebound :
    let first : List Operation :=
      [.register "sum" fun _ => pure (), .createKernel "sum", .createKernel "sum",
        .setArgument ⟨1, "sum"⟩ 1 (.int32 5), .setArgument ⟨1, "sum"⟩ 0 (.buffer ⟨9, 2⟩),
        .setArgument ⟨2, "sum"⟩ 0 (.int32 6)]
    let second : List Operation :=
      first ++ [.setArgument ⟨1, "sum"⟩ 0 (.int32 7), .setArgument ⟨1, "sum"⟩ 1 (.int64 8)]
    (fresh.after first).run ⟨1, "sum"⟩ (.line 0) =
        (.error (.invalidConfig "Global work size [0, 1, 1] is empty"), fresh.after first) ∧
      (fresh.after first).run ⟨3, "sum"⟩ (.line 4) = (.error (.unknownKernel 3), fresh.after first) ∧
      (fresh.after first).run ⟨1, "sum"⟩ (.line 4) =
        (.error (.missingArgument "sum" 0), fresh.after first) ∧
      ∃ body b, (fresh.after second).Executes ⟨1, "sum"⟩ (.line 4) body b ∧
        b.argument 0 = .ok (.int32 7) ∧ b.argument 1 = .ok (.int64 8) ∧
          b.argument 2 = .error (.missingArgument "sum" 2) := by
  intro first second
  have hhistory : fresh.history first = [.registered "sum" fun _ => pure (),
      .kernelCreated ⟨1, "sum"⟩, .kernelCreated ⟨2, "sum"⟩, .argumentSet 1 1 (.int32 5),
      .argumentSet 2 0 (.int32 6)] := rfl
  have hlater : fresh.history second = fresh.history first ++
      [.argumentSet 1 0 (.int32 7), .argumentSet 1 1 (.int64 8)] := rfl
  have hbound : boundPositions 1 (fresh.history first) = {1} := by
    ext index
    simp [boundPositions, hhistory]
  have hrebound : boundPositions 1 (fresh.history second) = {0, 1} := by
    ext index
    suffices index = 1 → index = 0 ∨ index = 1 by
      simpa [boundPositions, hlater, hhistory, exists_or] using this
    exact .inr
  obtain ⟨hinvalid, -, -⟩ := run_missesLeastGap first ⟨1, "sum"⟩ (.line 0)
  obtain ⟨-, hunknown, -⟩ := run_missesLeastGap first ⟨3, "sum"⟩ (.line 4)
  obtain ⟨-, -, hfirst⟩ := run_missesLeastGap first ⟨1, "sum"⟩ (.line 4)
  obtain ⟨-, -, hgap⟩ := hfirst rfl (List.mem_of_getElem? (i := 1) rfl) (by simp [hhistory])
  obtain ⟨-, -, hsecond⟩ := run_missesLeastGap second ⟨1, "sum"⟩ (.line 4)
  obtain ⟨hgapless, hfound, -⟩ := hsecond rfl (List.mem_of_getElem? (i := 1) rfl)
    (by simp [hlater, hhistory])
  refine ⟨hinvalid _ rfl, hunknown rfl rfl, ?_, ?_⟩
  · -- nothing is below the least gap, which is at zero
    obtain ⟨index, hleast, hrun⟩ := hgap (by
      rw [hbound]
      intro hgapless
      simpa using hgapless 1 ⟨rfl, fun _ h => h.le⟩ 0 Nat.one_pos)
    have hzero : index = 0 := Nat.le_zero.1 (hleast.2 (by rw [hbound]; simp))
    rw [← hzero]
    exact hrun
  · obtain ⟨body, b, hexecutes⟩ := hgapless.2 (by
      rw [hrebound]
      intro largest hlargest index hindex
      have hlargest : largest = 0 ∨ largest = 1 := hlargest.1
      have hzero : index = 0 := by omega
      simp [hzero])
    have hargument := hfound body b hexecutes
    exact ⟨body, b, hexecutes, hargument 0, hargument 1, hargument 2⟩

end HostDevice

end PrecisionAudit
