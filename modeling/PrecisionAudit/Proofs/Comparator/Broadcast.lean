import PrecisionAudit.Proofs.Comparator.Lanes

/-!
# One requirement for all lanes

A comparator takes one requirement for all lanes or one for each lane, and it is the length of the list alone
that says which is meant. Where the reference has one lane the two readings meet, and where it has none a list
without requirements is as good as a single one. A requirement that stands for all lanes and as many copies of it
as there are lanes cannot be told apart by what a comparator answers.

## Main results

- `LaneComparator.alike_of_requirement?_eq`: the answers depend on the lists of requirements only through the
  requirement of each lane of the reference.
- `LaneComparator.withRequirements_broadcast`: which lists are taken, what a comparator then answers, and that
  repeating a requirement changes no answer.
-/

namespace PrecisionAudit

namespace LaneComparator

variable {p : Precision} {c d : LaneComparator p} {requirements : List (Requirement p)}
variable {q : Requirement p} {lane : ℕ}

/-! ## Comparators that answer alike -/

/-- Two comparators have the same verdict on every candidate, whatever its width, and the same report. -/
structure Alike (c d : LaneComparator p) : Prop where
  verdict : ∀ candidate, ∃ verdict, c.accepts? candidate = some verdict ∧ d.accepts? candidate = some verdict
  report : ∃ text, c.describe? = some text ∧ d.describe? = some text

/-- Two comparators hold the same, except that they may name the requirements of the lanes differently. -/
structure SameLanes (c d : LaneComparator p) : Prop where
  candidate : c.candidate = d.candidate
  reference : c.reference = d.reference
  inputs : c.inputs = d.inputs
  requirement : ∀ lane < c.reference.width, c.requirement? lane = d.requirement? lane

theorem SameLanes.accepts?_eq (h : c.SameLanes d) (candidate : Lanes p) :
    c.accepts? candidate = d.accepts? candidate := by
  unfold accepts?
  rw [← h.reference]
  -- past the widths only lanes of the reference are looked at
  refine if_congr Iff.rfl rfl (allM_congr fun lane hlane => ?_)
  rw [checkLane?, checkLane?, h.requirement lane (List.mem_range.1 hlane), h.reference]

theorem SameLanes.describe?_eq (h : c.SameLanes d) : c.describe? = d.describe? := by
  have hlines : (List.range c.reference.width).mapM c.laneLines? =
      (List.range d.reference.width).mapM d.laneLines? := by
    rw [← h.reference]
    refine mapM_congr fun lane hlane => ?_
    rw [laneLines?, laneLines?, h.requirement lane (List.mem_range.1 hlane), h.reference, h.candidate]
  rw [describe?, describe?, hlines, h.candidate, h.inputs]

/-- The answers of a comparator depend on its list of requirements only through the requirement of each lane
of the reference. -/
theorem alike_of_requirement?_eq (hcovers : c.Covers) (h : c.SameLanes d) : c.Alike d := by
  refine ⟨fun candidate => ?_, ?_⟩
  · obtain ⟨verdict, hverdict, -⟩ := exists_accepts?_eq hcovers candidate
    exact ⟨verdict, hverdict, h.accepts?_eq candidate ▸ hverdict⟩
  · obtain ⟨text, htext⟩ := exists_describe?_eq hcovers
    exact ⟨text, htext, h.describe?_eq ▸ htext⟩

/-! ## The requirement of a lane -/

/-- What a list of requirements asks of a lane: its only requirement, or the one in the place of the lane. -/
def AsksOf (requirements : List (Requirement p)) (lane : ℕ) (q : Requirement p) : Prop :=
  requirements = [q] ∨ requirements[lane]? = some q

/-- Among the lanes that there are, copies of a requirement ask for it everywhere. -/
theorem asksOf_replicate {n : ℕ} (hlane : lane < n) : AsksOf (List.replicate n q) lane q :=
  .inr (by rw [List.getElem?_replicate, if_pos hlane])

theorem requirement?_eq_some_iff_asksOf :
    c.requirement? lane = some q ↔ AsksOf c.requirements lane q := requirement?_eq_some_iff

theorem meets_iff {candidate : Lanes p} : c.Meets candidate lane ↔
    ∃ q x r, AsksOf c.requirements lane q ∧ candidate.lane? lane = some x ∧
      c.reference.lane? lane = some r ∧ q.check x r = true := by
  simp only [Meets, requirement?_eq_some_iff_asksOf]

theorem withRequirements_eq_error_iff {candidate reference : Lanes p} {error : AuditError} :
    withRequirements candidate reference requirements = .error error ↔
      (requirements.length ≠ 1 ∧ requirements.length ≠ reference.width) ∧
        error = .requirementCount reference.width requirements.length := by
  unfold withRequirements
  split
  case isTrue hcount => simp [hcount, eq_comm]
  case isFalse hcount => simp [hcount]

theorem sameLanes_replicate (candidate reference : Lanes p) (q : Requirement p) (inputs : List String) :
    SameLanes ⟨candidate, reference, List.replicate reference.width q, inputs⟩
      ⟨candidate, reference, [q], inputs⟩ where
  candidate := rfl
  reference := rfl
  inputs := rfl
  requirement lane hlane := by
    have hsingle : AsksOf [q] lane q := .inl rfl
    rw [requirement?_eq_some_iff_asksOf.2 (asksOf_replicate hlane),
      requirement?_eq_some_iff_asksOf.2 hsingle]

/-- A list of requirements is taken if it has one requirement or as many as the reference has lanes, and what
is wrong with any other is its length. A comparator then accepts what has the lanes of the reference and in each
of them satisfies the requirement that is asked there. One requirement repeated for every lane, for a reference
without lanes not at all, is as good as the requirement itself: no candidate and no report tells the two apart. -/
theorem withRequirements_broadcast (candidate reference : Lanes p) :
    (∀ q, withRequirements candidate reference [q] = .ok (new candidate reference q) ∧
      ∃ c, withRequirements candidate reference (List.replicate reference.width q) = .ok c ∧
        c.Alike (new candidate reference q) ∧
        ∀ inputs, (c.withInputs inputs).Alike ((new candidate reference q).withInputs inputs)) ∧
    (∀ requirements error, withRequirements candidate reference requirements = .error error ↔
      (requirements.length ≠ 1 ∧ requirements.length ≠ reference.width) ∧
        error = .requirementCount reference.width requirements.length) ∧
    ∀ requirements c, withRequirements candidate reference requirements = .ok c →
      (∃ text, c.describe? = some text) ∧
      ∀ other, ∃ verdict, c.accepts? other = some verdict ∧
        (verdict = true ↔ other.width = reference.width ∧
          ∀ lane < reference.width, ∃ q x r, AsksOf requirements lane q ∧ other.lane? lane = some x ∧
            reference.lane? lane = some r ∧ q.check x r = true) := by
  refine ⟨fun q => ⟨?_, ?_⟩, fun requirements error => withRequirements_eq_error_iff, ?_⟩
  · exact withRequirements_eq_ok_iff.2 ⟨rfl, covers_new candidate reference q⟩
  · -- the copies cover the lanes by their number, also where that is one or none
    have hlength := List.length_replicate (n := reference.width) (a := q)
    have halike (inputs : List String) :
        Alike ⟨candidate, reference, List.replicate reference.width q, inputs⟩
          ⟨candidate, reference, [q], inputs⟩ :=
      alike_of_requirement?_eq (.inr hlength) (sameLanes_replicate candidate reference q inputs)
    exact ⟨_, withRequirements_eq_ok_iff.2 ⟨rfl, .inr hlength⟩, halike [], halike⟩
  · intro requirements c h
    obtain ⟨rfl, hcovers⟩ := withRequirements_eq_ok_iff.1 h
    refine ⟨exists_describe?_eq hcovers, fun other => ?_⟩
    obtain ⟨verdict, heq, hverdict⟩ := exists_accepts?_eq hcovers other
    refine ⟨verdict, heq, hverdict.trans ?_⟩
    simp only [meets_iff]

/-- Two lanes with requirements of their own, the first of which asks for nothing, and no lanes at all, for
which a list without requirements is taken like any single requirement. -/
theorem withRequirements_broadcast_own_places :
    let one := Scalar.ofNat .single 0x3f800000
    let two := Scalar.ofNat .single 0x40000000
    let reference : Lanes .single := .vector [one, two]
    let requirements : List (Requirement .single) := [.any, .ulpValue one]
    (∃ c, withRequirements reference reference requirements = .ok c ∧
      c.accepts? (.vector [two, two]) = some true ∧ c.accepts? (.vector [one, one]) = some false) ∧
    ∃ c, withRequirements reference (.vector []) [] = .ok c ∧
      c.Alike (new reference (.vector []) (.ulpValue one)) := by
  intro one two reference requirements
  obtain ⟨-, -, hverdict⟩ := withRequirements_broadcast reference reference
  obtain ⟨hbroadcast, -, -⟩ := withRequirements_broadcast reference (.vector [])
  refine ⟨⟨_, rfl, ?_, ?_⟩, ?_⟩
  · obtain ⟨verdict, heq, hiff⟩ := (hverdict requirements _ rfl).2 (.vector [two, two])
    rw [heq, hiff.2 ⟨rfl, ?_⟩]
    intro lane hlane
    match lane, hlane with
    | 0, _ => exact ⟨.any, two, one, .inr rfl, rfl, rfl, rfl⟩
    | 1, _ => exact ⟨.ulpValue one, two, two, .inr rfl, rfl, rfl, by decide +kernel⟩
  · obtain ⟨verdict, heq, hiff⟩ := (hverdict requirements _ rfl).2 (.vector [one, one])
    rw [heq, Option.some_inj, Bool.eq_false_iff, ne_eq, hiff]
    rintro ⟨-, hlanes⟩
    -- the second lane is asked to be within one step
    obtain ⟨q, x, r, hq, hx, hr, hcheck⟩ := hlanes 1 (by decide)
    have hlength : requirements ≠ [q] := ne_of_apply_ne List.length (show 2 ≠ 1 by decide)
    cases hq.resolve_left hlength
    cases hx
    cases hr
    exact absurd hcheck (by decide +kernel)
  · obtain ⟨c, hc, halike, -⟩ := (hbroadcast (.ulpValue one)).2
    exact ⟨c, hc, halike⟩

end LaneComparator

end PrecisionAudit
