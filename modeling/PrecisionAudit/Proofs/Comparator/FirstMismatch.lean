import Mathlib
import PrecisionAudit.Comparator.Buffer
import PrecisionAudit.Proofs.Comparator.Lanes

/-!
# The first mismatch of a buffer

A place in a buffer is an element and a lane of it. A place fails if both sides have the lane and the
candidate is further from the reference than the bound allows, or if only one side has the lane. The
search for a mismatch finds the first place that fails, and the verdict on the buffer is the verdict of
the lane comparator on every element.

## Main results

- `BufferComparator.exists_elementMismatch?_eq`: within an element, the first lane that fails is found.
- `BufferComparator.exists_firstMismatch?_eq`: in a buffer, the first place that fails is found.
- `BufferComparator.verdicts_agree`: the two verdicts and the search agree.
-/

namespace PrecisionAudit

variable {p : Precision}

namespace BufferComparator

/-! ## Places -/

/-- Two lanes differ by more than a bound, or only one of them is there. -/
def LaneFails (bound : p.Value) : Option p.Value → Option p.Value → Prop
  | some x, some r => (Requirement.ulpValue bound).check x r = false
  | none, none => False
  | some _, none => True
  | none, some _ => True

/-- What is to be said about a lane of an element. -/
def report (index : ℕ) (candidate reference : Lanes p) (bound : p.Value) (lane : ℕ) : Mismatch p where
  index := index
  lane := lane
  candidate := candidate.lane? lane
  reference := reference.lane? lane
  distance := (candidate.lane? lane).bind fun x => (reference.lane? lane).bind (x.distance? ·)
  bound := bound

/-- An element of a buffer, with what it is compared to. -/
def HasElement (b : BufferComparator p) (candidates : List (Lanes p)) (index : ℕ)
    (candidate reference : Lanes p) (bound : p.Value) : Prop :=
  candidates[index]? = some candidate ∧ b.references[index]? = some reference ∧
    b.bounds[index]? = some bound

theorem HasElement.unique {b : BufferComparator p} {candidates : List (Lanes p)} {index : ℕ}
    {candidate candidate' reference reference' : Lanes p} {bound bound' : p.Value}
    (h : b.HasElement candidates index candidate reference bound)
    (h' : b.HasElement candidates index candidate' reference' bound') :
    candidate = candidate' ∧ reference = reference' ∧ bound = bound' :=
  ⟨Option.some.inj (h.1.symm.trans h'.1), Option.some.inj (h.2.1.symm.trans h'.2.1),
    Option.some.inj (h.2.2.symm.trans h'.2.2)⟩

/-- A place fails in an element that both sides have. -/
def FailsAt (b : BufferComparator p) (candidates : List (Lanes p)) (place : ℕ ×ₗ ℕ) : Prop :=
  ∃ candidate reference bound, b.HasElement candidates (ofLex place).1 candidate reference bound ∧
    LaneFails bound (candidate.lane? (ofLex place).2) (reference.lane? (ofLex place).2)

variable {b : BufferComparator p} {candidates : List (Lanes p)} {candidate reference : Lanes p}
  {bound : p.Value} {index lane : ℕ}

/-- The distance is known where both sides are there and neither is a NaN. -/
theorem isSome_distance_report_iff :
    (report index candidate reference bound lane).distance.isSome ↔
      ∃ x r, candidate.lane? lane = some x ∧ reference.lane? lane = some r ∧
        x.isNaN = false ∧ r.isNaN = false := by
  unfold report
  cases candidate.lane? lane with
  | none => simp
  | some x =>
    cases reference.lane? lane with
    | none => simp
    | some r => simp [Scalar.distance?]

/-- A lane that fails is there on one side at least. -/
theorem LaneFails.isSome_or (h : LaneFails bound (candidate.lane? lane) (reference.lane? lane)) :
    (candidate.lane? lane).isSome ∨ (reference.lane? lane).isSome := by
  cases hx : candidate.lane? lane with
  | some x => exact .inl rfl
  | none =>
    cases hr : reference.lane? lane with
    | some r => exact .inr rfl
    | none =>
      rw [hx, hr] at h
      exact h.elim

/-- Beyond the shared lanes, the first lane fails if the widths differ, and no lane does otherwise. -/
theorem laneFails_of_width_ne (h : candidate.width ≠ reference.width) :
    LaneFails bound (candidate.lane? (min reference.width candidate.width))
      (reference.lane? (min reference.width candidate.width)) := by
  rcases Nat.lt_or_gt_of_ne h with hlt | hgt
  · obtain ⟨r, hr⟩ := Lanes.exists_lane?_eq hlt
    rw [Nat.min_eq_right hlt.le, Lanes.lane?_eq_none le_rfl, hr]
    trivial
  · obtain ⟨x, hx⟩ := Lanes.exists_lane?_eq hgt
    rw [Nat.min_eq_left hgt.le, Lanes.lane?_eq_none le_rfl, hx]
    trivial

theorem LaneFails.lt_width (h : LaneFails bound (candidate.lane? lane) (reference.lane? lane))
    (hwidth : candidate.width = reference.width) : lane < reference.width := by
  by_contra! hge
  rw [Lanes.lane?_eq_none (hwidth ▸ hge), Lanes.lane?_eq_none hge] at h
  exact h

/-! ## The search in an element -/

/-- A shared lane is reported exactly if it fails. -/
theorem laneMismatch?_eq (hcandidate : lane < candidate.width) (hreference : lane < reference.width) :
    ∃ o, laneMismatch? index candidate reference bound lane = some o ∧
      (o = none → ¬ LaneFails bound (candidate.lane? lane) (reference.lane? lane)) ∧
      ∀ m, o = some m → m = report index candidate reference bound lane ∧
        LaneFails bound (candidate.lane? lane) (reference.lane? lane) := by
  obtain ⟨x, hx⟩ := Lanes.exists_lane?_eq hcandidate
  obtain ⟨r, hr⟩ := Lanes.exists_lane?_eq hreference
  simp only [laneMismatch?, report, LaneFails, hx, hr, Option.bind_eq_bind, Option.bind_some]
  split
  case isTrue hpass => exact ⟨none, rfl, by simp [hpass], by simp⟩
  case isFalse hfail =>
    refine ⟨_, rfl, by simp, ?_⟩
    rintro m ⟨⟩
    exact ⟨rfl, by simpa using hfail⟩

/-- The lane that the widths decide is reported exactly if they differ, and neither side is looked up beyond
its lanes. -/
theorem widthMismatch?_eq :
    widthMismatch? index candidate reference bound = some (
      if candidate.width = reference.width then none
      else some (report index candidate reference bound (min reference.width candidate.width))) := by
  unfold widthMismatch?
  simp only [Lanes.guardedLane?_eq, Option.bind_eq_bind, Option.bind_some, Option.pure_def]
  split
  case isTrue => rfl
  case isFalse hwidth =>
    -- one of the sides is missing there, so that there is no distance
    have hdistance : (report index candidate reference bound
        (min reference.width candidate.width)).distance = none := by
      rw [← Option.not_isSome_iff_eq_none, isSome_distance_report_iff]
      rintro ⟨x, r, hx, hr, -⟩
      have hcandidate := Lanes.lt_width_of_lane? hx
      have hreference := Lanes.lt_width_of_lane? hr
      omega
    rw [← hdistance]
    rfl

/-- Among the shared lanes of an element the first that fails is found. -/
theorem exists_sharedMismatch?_eq (index : ℕ) (candidate reference : Lanes p) (bound : p.Value) :
    ∃ o, (List.range (min reference.width candidate.width)).findSomeM?
        (laneMismatch? index candidate reference bound) = some o ∧
      (o = none → ∀ lane < min reference.width candidate.width,
        ¬ LaneFails bound (candidate.lane? lane) (reference.lane? lane)) ∧
      ∀ m, o = some m → ∃ lane,
        IsLeast { lane | LaneFails bound (candidate.lane? lane) (reference.lane? lane) } lane ∧
          m = report index candidate reference bound lane := by
  have hlanes : ∀ lane ∈ List.range (min reference.width candidate.width), ∃ o,
      laneMismatch? index candidate reference bound lane = some o ∧
        (o = none → ¬ LaneFails bound (candidate.lane? lane) (reference.lane? lane)) ∧
        ∀ m, o = some m → m = report index candidate reference bound lane ∧
          LaneFails bound (candidate.lane? lane) (reference.lane? lane) := by
    intro lane hlane
    rw [List.mem_range] at hlane
    exact laneMismatch?_eq (by omega) (by omega)
  obtain ⟨o, ho, hnone, hsome⟩ := exists_findSomeM?_eq_some hlanes
  refine ⟨o, ho, fun hempty lane hlane => hnone hempty lane (List.mem_range.2 hlane), ?_⟩
  intro m hm
  obtain ⟨i, lane, hlane, ⟨hreport, hfails⟩, hbefore⟩ := hsome m hm
  obtain ⟨hi, heq⟩ := List.getElem?_eq_some_iff.1 hlane
  rw [List.length_range] at hi
  obtain rfl : i = lane := by simpa using heq
  refine ⟨i, ⟨hfails, fun j hj => ?_⟩, hreport⟩
  by_contra! hlt
  exact hbefore j hlt j (List.getElem?_range (hlt.trans hi)) hj

/-- Within an element the first lane that fails is found: a shared one, or else the one at which the
shorter side ends. -/
theorem exists_elementMismatch?_eq (index : ℕ) (candidate reference : Lanes p) (bound : p.Value) :
    ∃ o, elementMismatch? index candidate reference bound = some o ∧
      (o = none → ∀ lane, ¬ LaneFails bound (candidate.lane? lane) (reference.lane? lane)) ∧
      ∀ m, o = some m → ∃ lane,
        IsLeast { lane | LaneFails bound (candidate.lane? lane) (reference.lane? lane) } lane ∧
          m = report index candidate reference bound lane := by
  obtain ⟨o, ho, hnone, hsome⟩ := exists_sharedMismatch?_eq index candidate reference bound
  unfold elementMismatch?
  simp only [ho, Option.bind_eq_bind, Option.bind_some, Option.pure_def]
  cases o with
  | some m =>
    refine ⟨some m, rfl, by simp, ?_⟩
    rintro _ ⟨⟩
    exact hsome m rfl
  | none =>
    -- no shared lane fails, so that it is a matter of the widths
    have hpass := hnone rfl
    refine ⟨_, widthMismatch?_eq, ?_⟩
    split
    case isTrue hwidth =>
      refine ⟨fun _ lane hfails => ?_, by simp⟩
      have hlt := hfails.lt_width hwidth
      exact hpass lane (by omega) hfails
    case isFalse hwidth =>
      refine ⟨by simp, ?_⟩
      rintro _ ⟨⟩
      refine ⟨_, ⟨laneFails_of_width_ne hwidth, fun j hj => ?_⟩, rfl⟩
      by_contra! hlt
      exact hpass j hlt hj

/-! ## The search in a buffer -/

/-- The elements that are searched are those that both sides have, in order. -/
theorem getElem?_sharedElements {k : ℕ} :
    (b.sharedElements candidates)[index]? = some (k, candidate, reference, bound) ↔
      k = index ∧ b.HasElement candidates index candidate reference bound := by
  simp only [sharedElements, List.getElem?_zip_eq_some, HasElement]
  constructor
  · rintro ⟨hk, hc, hr, hbd⟩
    obtain ⟨hlt, heq⟩ := List.getElem?_eq_some_iff.1 hk
    exact ⟨by simpa using heq.symm, hc, hr, hbd⟩
  · rintro ⟨rfl, hc, hr, hbd⟩
    obtain ⟨hlt, -⟩ := List.getElem?_eq_some_iff.1 hc
    exact ⟨List.getElem?_range hlt, hc, hr, hbd⟩

/-- In a buffer the first place that fails is found, element by element and lane by lane, and nothing
is found only if no place fails. -/
theorem exists_firstMismatch?_eq (b : BufferComparator p) (candidates : List (Lanes p)) :
    ∃ o, b.firstMismatch? candidates = some o ∧
      (o = none → ∀ place, ¬ b.FailsAt candidates place) ∧
      ∀ m, o = some m → IsLeast { place | b.FailsAt candidates place } (toLex (m.index, m.lane)) ∧
        ∃ candidate reference bound, b.HasElement candidates m.index candidate reference bound ∧
          m = report m.index candidate reference bound m.lane := by
  have helements : ∀ place ∈ b.sharedElements candidates, ∃ o,
      elementMismatch? place.1 place.2.1 place.2.2.1 place.2.2.2 = some o ∧
        (o = none → ¬ ∃ lane, LaneFails place.2.2.2 (place.2.1.lane? lane) (place.2.2.1.lane? lane)) ∧
        ∀ m, o = some m → ∃ lane, IsLeast
          { lane | LaneFails place.2.2.2 (place.2.1.lane? lane) (place.2.2.1.lane? lane) } lane ∧
            m = report place.1 place.2.1 place.2.2.1 place.2.2.2 lane := by
    rintro ⟨k, c, r, bd⟩ -
    obtain ⟨o, ho, hnone, hsome⟩ := exists_elementMismatch?_eq k c r bd
    exact ⟨o, ho, fun hempty => not_exists.2 (hnone hempty), hsome⟩
  obtain ⟨o, ho, hnone, hsome⟩ := exists_findSomeM?_eq_some helements
  refine ⟨o, ho, ?_, ?_⟩
  · rintro hempty place ⟨c, r, bd, helement, hfails⟩
    have hmem := List.mem_of_getElem? (getElem?_sharedElements.2 ⟨rfl, helement⟩)
    exact hnone hempty _ hmem ⟨_, hfails⟩
  · intro m hm
    obtain ⟨i, ⟨k, c, r, bd⟩, hplace, ⟨lane, ⟨hfails, hleast⟩, rfl⟩, hbefore⟩ := hsome m hm
    obtain ⟨rfl, helement⟩ := getElem?_sharedElements.1 hplace
    refine ⟨⟨⟨c, r, bd, helement, hfails⟩, ?_⟩, c, r, bd, helement, rfl⟩
    -- an earlier element has no lane that fails, and in the same element the lane is the least that does
    rintro place ⟨c', r', bd', helement', hfails'⟩
    obtain ⟨⟨i', lane'⟩, rfl⟩ := toLex.surjective place
    rw [Prod.Lex.toLex_le_toLex]
    rcases lt_trichotomy k i' with hlt | rfl | hgt
    · exact .inl hlt
    · obtain ⟨rfl, rfl, rfl⟩ := helement.unique helement'
      exact .inr ⟨rfl, hleast hfails'⟩
    · have hpassed := hbefore i' hgt _ (getElem?_sharedElements.2 ⟨rfl, helement'⟩)
      exact absurd ⟨_, hfails'⟩ hpassed

/-! ## The verdicts -/

/-- The lane comparator accepts an element if no lane of it fails. -/
theorem new_accepts_iff : (LaneComparator.new candidate reference (.ulpValue bound)).accepts candidate =
    true ↔ ∀ lane, ¬ LaneFails bound (candidate.lane? lane) (reference.lane? lane) := by
  rw [LaneComparator.accepts_iff (LaneComparator.covers_new ..)]
  constructor
  · rintro ⟨hwidth, hmeets⟩ lane hfails
    obtain ⟨q, x, r, hq, hx, hr, hcheck⟩ := hmeets lane (hfails.lt_width hwidth)
    cases hq
    change candidate.lane? lane = some x at hx
    change reference.lane? lane = some r at hr
    rw [hx, hr] at hfails
    exact Bool.false_ne_true (hfails.symm.trans hcheck)
  · intro hpass
    have hwidth : candidate.width = reference.width := by
      by_contra! hne
      exact hpass _ (laneFails_of_width_ne hne)
    refine ⟨hwidth, fun lane hlane => ?_⟩
    obtain ⟨x, hx⟩ := Lanes.exists_lane?_eq (hwidth.symm ▸ hlane)
    obtain ⟨r, hr⟩ := Lanes.exists_lane?_eq hlane
    change reference.lane? lane = some r at hr
    have hcheck := hpass lane
    rw [hx, hr] at hcheck
    exact ⟨_, x, r, rfl, hx, hr, Bool.eq_true_of_not_eq_false hcheck⟩

/-- Two buffers of the same length share all their elements, and if no place fails their widths agree. -/
theorem any_width_ne_eq_false (hbounds : b.bounds.length = b.references.length)
    (hpass : ∀ place, ¬ b.FailsAt candidates place) :
    ((candidates.zip b.references).any fun (c, r) => c.width != r.width) = false := by
  rw [List.any_eq_false]
  rintro ⟨c, r⟩ hmem hne
  obtain ⟨i, hi⟩ := List.mem_iff_getElem?.1 hmem
  obtain ⟨hc, hr⟩ := List.getElem?_zip_eq_some.1 hi
  have hlt := (List.getElem?_eq_some_iff.1 hr).1
  refine hpass (toLex (i, _)) ⟨c, r, b.bounds[i], ⟨hc, hr, List.getElem?_eq_getElem _⟩,
    laneFails_of_width_ne (bne_iff_ne.1 hne)⟩

/-- There is a verdict on every buffer: it holds if there are as many elements as references and no
place fails. -/
theorem exists_accepts?_eq (hbounds : b.bounds.length = b.references.length)
    (candidates : List (Lanes p)) :
    ∃ verdict, b.accepts? candidates = some verdict ∧
      (verdict = true ↔ candidates.length = b.references.length ∧
        ∀ place, ¬ b.FailsAt candidates place) := by
  unfold accepts?
  split
  case isTrue hlength => exact ⟨false, rfl, by simp [hlength]⟩
  case isFalse hlength =>
    rw [not_not] at hlength
    split
    case isTrue hwidths =>
      refine ⟨false, rfl, iff_of_false Bool.false_ne_true ?_⟩
      rintro ⟨-, hpass⟩
      rw [any_width_ne_eq_false hbounds hpass] at hwidths
      cases hwidths
    case isFalse =>
      obtain ⟨o, ho, hnone, hsome⟩ := exists_firstMismatch?_eq b candidates
      rw [ho]
      refine ⟨o.isNone, rfl, ?_⟩
      rw [and_iff_right hlength]
      cases o with
      | none => exact iff_of_true rfl (hnone rfl)
      | some m =>
        obtain ⟨⟨hfails, -⟩, -⟩ := hsome m rfl
        exact iff_of_false (by simp) fun hpass => hpass _ hfails

/-- The verdict on a buffer is that of the lane comparator on every element, and it is a matter of
length and of the first mismatch. What is reported as the first mismatch is the least place that fails,
with what is there on both sides. -/
theorem verdicts_agree (b : BufferComparator p) (hbounds : b.bounds.length = b.references.length)
    (candidates : List (Lanes p)) :
    (b.accepts? candidates = some (b.accepts candidates) ∧
      b.firstMismatch? candidates = some (b.firstMismatch candidates)) ∧
    (b.accepts candidates = true ↔ candidates.length = b.references.length ∧
      ∀ index candidate reference bound, b.HasElement candidates index candidate reference bound →
        (LaneComparator.new candidate reference (.ulpValue bound)).accepts candidate = true) ∧
    (b.accepts candidates = true ↔ candidates.length = b.references.length ∧
      b.firstMismatch candidates = none) ∧
    ∀ m, b.firstMismatch candidates = some m →
      IsLeast { place | b.FailsAt candidates place } (toLex (m.index, m.lane)) ∧
      (∃ candidate reference, b.HasElement candidates m.index candidate reference m.bound ∧
        m.candidate = candidate.lane? m.lane ∧ m.reference = reference.lane? m.lane) ∧
      (m.candidate.isSome ∨ m.reference.isSome) ∧
      (m.distance.isSome ↔ ∃ x r, m.candidate = some x ∧ m.reference = some r ∧
        x.isNaN = false ∧ r.isNaN = false) := by
  obtain ⟨verdict, haccepts?, hverdict⟩ := exists_accepts?_eq hbounds candidates
  obtain ⟨o, hfirst?, hnone, hsome⟩ := exists_firstMismatch?_eq b candidates
  have haccepts : b.accepts candidates = verdict := by rw [accepts, haccepts?, Option.getD_some]
  have hfirst : b.firstMismatch candidates = o := by rw [firstMismatch, hfirst?, Option.getD_some]
  rw [haccepts, hfirst, hverdict]
  refine ⟨⟨haccepts?, hfirst?⟩, and_congr_right fun _ => ?_, and_congr_right fun _ => ?_, ?_⟩
  · constructor
    · intro hpass i c r bd helement
      exact new_accepts_iff.2 fun lane hfails => hpass (toLex (i, lane)) ⟨c, r, bd, helement, hfails⟩
    · rintro hlanes place ⟨c, r, bd, helement, hfails⟩
      exact new_accepts_iff.1 (hlanes _ c r bd helement) _ hfails
  · constructor
    · intro hpass
      cases o with
      | none => rfl
      | some m => exact absurd (hsome m rfl).1.1 (hpass _)
    · exact hnone
  · intro m hm
    obtain ⟨hleast, c, r, bd, helement, hreport⟩ := hsome m hm
    obtain ⟨c', r', bd', helement', hfails⟩ := hleast.1
    obtain ⟨rfl, rfl, rfl⟩ := helement.unique helement'
    rw [hreport]
    exact ⟨hreport ▸ hleast, ⟨c, r, helement, rfl, rfl⟩, hfails.isSome_or, isSome_distance_report_iff⟩

/-- A vector that ends too early, before an element that is too far from its reference: the least place
that fails is the first missing lane. -/
theorem verdicts_agree_ragged :
    let one := Scalar.ofNat .single 0x3f800000
    let b : BufferComparator .single := uniform [] [.vector [one, one], .array [one]] one
    let candidates : List (Lanes .single) := [.vector [one], .array [Scalar.ofNat .single 0x40000000]]
    b.accepts candidates = false ∧
      IsLeast { place | b.FailsAt candidates place } (toLex (0, 1)) := by
  intro one b candidates
  have hfirst : b.firstMismatch candidates =
      some ⟨0, 1, none, some one, none, one⟩ := by decide +kernel
  obtain ⟨-, -, haccepts, hfound⟩ := verdicts_agree b rfl candidates
  refine ⟨?_, (hfound _ hfirst).1⟩
  rw [Bool.eq_false_iff, ne_eq, haccepts, hfirst]
  rintro ⟨-, ⟨⟩⟩

end BufferComparator

end PrecisionAudit
