import PrecisionAudit.Comparator.Lane
import PrecisionAudit.Proofs.Traversal

/-!
# Lanes under requirements

A lane comparator with one requirement for all lanes, or with one for each, never looks beyond its
lanes and requirements: it has a verdict on every candidate and a report on its own.

## Main results

- `LaneComparator.exists_accepts?_eq`: the verdict holds if the widths agree and every lane meets its
  requirement.
- `LaneComparator.exists_describe?_eq`: the report exists.
- `LaneComparator.withRequirements_eq_ok_iff`: which lists of requirements are taken.
-/

namespace PrecisionAudit

variable {p : Precision}

namespace Lanes

variable {v : Lanes p} {lane : ℕ} {x : p.Value}

theorem exists_lane?_eq (h : lane < v.width) : ∃ x, v.lane? lane = some x :=
  ⟨_, List.getElem?_eq_getElem h⟩

theorem lane?_eq_none (h : v.width ≤ lane) : v.lane? lane = none := List.getElem?_eq_none h

theorem lt_width_of_lane? (h : v.lane? lane = some x) : lane < v.width :=
  (List.getElem?_eq_some_iff.1 h).1

/-- A look-up behind the width never fails, and where it is not made there is no lane to find. -/
theorem guardedLane?_eq (v : Lanes p) (lane : ℕ) :
    v.guardedLane? (lane < v.width) lane = some (v.lane? lane) := by
  unfold guardedLane?
  split
  case isTrue hlane =>
    obtain ⟨x, hx⟩ := exists_lane?_eq hlane
    rw [hx, Option.map_some]
  case isFalse hlane => rw [lane?_eq_none (Nat.le_of_not_lt hlane)]

/-- A number has a lane, and a vector is shown lane by lane. -/
theorem isSome_text? (v : Lanes p) : v.text?.isSome := by
  unfold text?
  split
  case isTrue =>
    rw [Option.isSome_map]
    refine isSome_mapM fun lane hlane => ?_
    obtain ⟨x, hx⟩ := exists_lane?_eq (List.mem_range.1 hlane)
    simp [hx]
  case isFalse hnumber =>
    have hwidth : 0 < v.width := by
      cases v with
      | scalar x => exact Nat.one_pos
      | array xs => exact absurd rfl hnumber
      | vector xs =>
        have hone : xs.length = 1 := by simpa [isVector] using hnumber
        exact Nat.le_of_eq hone.symm
    obtain ⟨x, hx⟩ := exists_lane?_eq hwidth
    simp [hx]

end Lanes

namespace LaneComparator

variable {c : LaneComparator p} {candidate : Lanes p} {lane : ℕ}

/-! ## Requirements of lanes -/

/-- There is one requirement for all lanes of the reference, or one for each of them. -/
def Covers (c : LaneComparator p) : Prop :=
  c.requirements.length = 1 ∨ c.requirements.length = c.reference.width

theorem covers_new (candidate reference : Lanes p) (requirement : Requirement p) :
    (new candidate reference requirement).Covers := .inl rfl

/-- A list of requirements is taken if it covers the lanes of the reference. -/
theorem withRequirements_eq_ok_iff {reference : Lanes p} {requirements : List (Requirement p)} :
    withRequirements candidate reference requirements = .ok c ↔
      c = ⟨candidate, reference, requirements, []⟩ ∧ c.Covers := by
  unfold withRequirements
  split
  case isTrue hcount =>
    constructor
    · intro h
      cases h
    · rintro ⟨rfl, hone | hwidth⟩
      · exact absurd hone hcount.1
      · exact absurd hwidth hcount.2
  case isFalse hcount =>
    constructor
    · rintro ⟨⟩
      refine ⟨rfl, ?_⟩
      by_cases hone : requirements.length = 1
      · exact .inl hone
      · exact .inr (not_not.1 fun hwidth => hcount ⟨hone, hwidth⟩)
    · rintro ⟨rfl, -⟩
      rfl

theorem requirement?_eq_some_iff {q : Requirement p} :
    c.requirement? lane = some q ↔ c.requirements = [q] ∨ c.requirements[lane]? = some q := by
  unfold requirement?
  split
  case isTrue hone =>
    obtain ⟨only, honly⟩ := List.length_eq_one_iff.1 hone
    rw [honly]
    cases lane <;> simp
  case isFalse hone =>
    rw [or_iff_right]
    intro h
    exact hone (h ▸ rfl)

theorem Covers.exists_requirement?_eq (h : c.Covers) (hlane : lane < c.reference.width) :
    ∃ q, c.requirement? lane = some q := by
  unfold requirement?
  split
  case isTrue hone => exact ⟨_, List.getElem?_eq_getElem (hone ▸ Nat.one_pos)⟩
  case isFalse hone =>
    have hwidth := h.resolve_left hone
    exact ⟨_, List.getElem?_eq_getElem (hwidth ▸ hlane)⟩

/-! ## The verdict -/

/-- A lane of a candidate satisfies the requirement of that lane. -/
def Meets (c : LaneComparator p) (candidate : Lanes p) (lane : ℕ) : Prop :=
  ∃ q x r, c.requirement? lane = some q ∧ candidate.lane? lane = some x ∧
    c.reference.lane? lane = some r ∧ q.check x r = true

theorem checkLane?_eq_some_true_iff :
    c.checkLane? candidate lane = some true ↔ c.Meets candidate lane := by
  simp [checkLane?, Meets, Option.bind_eq_some_iff]

theorem Covers.isSome_checkLane? (h : c.Covers) (hwidth : candidate.width = c.reference.width)
    (hlane : lane < c.reference.width) : (c.checkLane? candidate lane).isSome := by
  obtain ⟨q, hq⟩ := h.exists_requirement?_eq hlane
  obtain ⟨x, hx⟩ := Lanes.exists_lane?_eq (hwidth.symm ▸ hlane)
  obtain ⟨r, hr⟩ := Lanes.exists_lane?_eq hlane
  simp [checkLane?, hq, hx, hr]

/-- There is a verdict on every candidate. It holds if the widths agree and every lane meets its
requirement. -/
theorem exists_accepts?_eq (h : c.Covers) (candidate : Lanes p) :
    ∃ verdict, c.accepts? candidate = some verdict ∧
      (verdict = true ↔ candidate.width = c.reference.width ∧
        ∀ lane < c.reference.width, c.Meets candidate lane) := by
  unfold accepts?
  split
  case isTrue hwidth => exact ⟨false, rfl, by simp [hwidth]⟩
  case isFalse hwidth =>
    rw [not_not] at hwidth
    obtain ⟨verdict, heq, hverdict⟩ := exists_allM_eq_some (f := c.checkLane? candidate)
      fun lane hlane => h.isSome_checkLane? hwidth (List.mem_range.1 hlane)
    refine ⟨verdict, heq, hverdict.trans ?_⟩
    simp [hwidth, checkLane?_eq_some_true_iff]

theorem accepts_iff (h : c.Covers) (candidate : Lanes p) :
    c.accepts candidate = true ↔ candidate.width = c.reference.width ∧
      ∀ lane < c.reference.width, c.Meets candidate lane := by
  obtain ⟨verdict, heq, hverdict⟩ := exists_accepts?_eq h candidate
  rw [accepts, heq, Option.getD_some, hverdict]

/-! ## The report -/

theorem exists_requirementText?_eq (candidate : Lanes p) (lane : ℕ) (reference : p.Value)
    (q : Requirement p) : ∃ text, requirementText? candidate lane reference q = some text := by
  cases q with
  | ulpValue bound =>
    rw [requirementText?, candidate.guardedLane?_eq]
    exact ⟨_, rfl⟩
  | errorValue | valueRange | any | undefined => exact ⟨_, rfl⟩

/-- The report exists, whatever the width of the stored candidate. -/
theorem exists_describe?_eq (h : c.Covers) : ∃ text, c.describe? = some text := by
  have hlines : ((List.range c.reference.width).mapM c.laneLines?).isSome := by
    refine isSome_mapM fun lane hlane => ?_
    obtain ⟨r, hr⟩ := Lanes.exists_lane?_eq (List.mem_range.1 hlane)
    obtain ⟨q, hq⟩ := h.exists_requirement?_eq (List.mem_range.1 hlane)
    obtain ⟨asked, hasked⟩ := exists_requirementText?_eq c.candidate lane r q
    simp [laneLines?, hr, hq, hasked]
  obtain ⟨lines, hlines⟩ := Option.isSome_iff_exists.1 hlines
  obtain ⟨result, hresult⟩ := Option.isSome_iff_exists.1 c.candidate.isSome_text?
  unfold describe?
  rw [hlines, hresult]
  exact ⟨_, rfl⟩

end LaneComparator

end PrecisionAudit
