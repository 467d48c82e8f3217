import Mathlib.Data.Set.Function
import Mathlib.Data.Set.Prod
import Mathlib.Tactic.Ring
import PrecisionAudit.Proofs.Device.Runs

/-!
# Grids of whole groups

A launch is accepted if its grid is made up of whole groups that the device can hold. The check looks at
two products and at three remainders; what it accepts is said here by the sizes themselves, and by the
places of the work items: each item has one group and one place within it. The products are taken in words,
and say how many places there are as long as these are fewer than `2 ^ 64`.

## Main results

- `Extent.exists_splitsInto_iff`: a grid splits into groups exactly if their sizes divide its own.
- `Launch.Fits.validate_eq_ok_iff`: what the check accepts, by sizes.
- `Launch.validate_acceptsTileable`: the same by places; nothing is divided by zero on the way.
-/

namespace PrecisionAudit

namespace Extent

variable {grid group counts e e' : Extent}

/-! ## Sizes -/

/-- A box that has a size in every direction. -/
def IsPos (e : Extent) : Prop := 0 < e.x ∧ 0 < e.y ∧ 0 < e.z

/-- The number of places in a box. -/
def card (e : Extent) : ℕ := e.x * e.y * e.z

theorem card_ne_zero_iff : e.card ≠ 0 ↔ e.IsPos := by
  simp only [card, IsPos, ne_eq, Nat.mul_eq_zero, not_or, Nat.pos_iff_ne_zero, and_assoc]

/-- A word holds the number of places in the box. -/
def Fits (e : Extent) : Prop := e.card < 2 ^ 64

instance (e : Extent) : Decidable e.Fits := inferInstanceAs (Decidable (e.card < 2 ^ 64))

theorem Fits.volume_eq (h : e.Fits) : e.volume = e.card := Nat.mod_eq_of_lt h

theorem Fits.volume_ne_zero_iff (h : e.Fits) : e.volume ≠ 0 ↔ e.IsPos := by
  rw [h.volume_eq, card_ne_zero_iff]

/-- The sizes of a group divide those of the grid, each that of its own direction. -/
def Divides (group grid : Extent) : Prop := group.x ∣ grid.x ∧ group.y ∣ grid.y ∧ group.z ∣ grid.z

/-- Groups laid side by side, so many in each direction. -/
def scale (counts group : Extent) : Extent :=
  ⟨counts.x * group.x, counts.y * group.y, counts.z * group.z⟩

theorem card_scale (counts group : Extent) : (counts.scale group).card = counts.card * group.card := by
  simp only [card, scale]
  ring

theorem divides_iff : group.Divides grid ↔ ∃ counts : Extent, counts.scale group = grid := by
  constructor
  · rintro ⟨⟨i, hi⟩, ⟨j, hj⟩, ⟨k, hk⟩⟩
    refine ⟨⟨i, j, k⟩, ?_⟩
    rw [scale, Nat.mul_comm i, Nat.mul_comm j, Nat.mul_comm k, ← hi, ← hj, ← hk]
  · rintro ⟨counts, rfl⟩
    exact ⟨Nat.dvd_mul_left _ _, Nat.dvd_mul_left _ _, Nat.dvd_mul_left _ _⟩

/-- The remainders say whether the sizes divide. -/
theorem isMultipleOf?_eq_some_true_iff (hgroup : group.volume ≠ 0) :
    grid.isMultipleOf? group = some true ↔ group.Divides grid := by
  rw [grid.isMultipleOf?_eq_some hgroup]
  simp only [Option.some.injEq, Bool.and_eq_true, beq_iff_eq, and_assoc, Divides,
    Nat.dvd_iff_mod_eq_zero]

/-! ## Places -/

/-- The places in a box. -/
def places (e : Extent) : Set (ℕ × ℕ × ℕ) := Set.Iio e.x ×ˢ Set.Iio e.y ×ˢ Set.Iio e.z

/-- The place in the grid of a work item, from that of its group and its own within the group. -/
def placeOf (group : Extent) (item : (ℕ × ℕ × ℕ) × (ℕ × ℕ × ℕ)) : ℕ × ℕ × ℕ :=
  (item.1.1 * group.x + item.2.1, item.1.2.1 * group.y + item.2.2.1, item.1.2.2 * group.z + item.2.2.2)

/-- The grid splits into whole groups, so many in each direction: every place in the grid is that of one
place in one of the groups, and the groups have no other places. -/
def SplitsInto (grid group counts : Extent) : Prop :=
  Set.BijOn group.placeOf (counts.places ×ˢ group.places) grid.places

/-- In one direction: numbers below a product are taken apart by division with remainder. -/
private theorem bijOn_mul_add (count size : ℕ) :
    Set.BijOn (fun item : ℕ × ℕ => item.1 * size + item.2) (Set.Iio count ×ˢ Set.Iio size)
      (Set.Iio (count * size)) := by
  refine ⟨?_, ?_, ?_⟩
  · rintro ⟨i, j⟩ ⟨hi, hj⟩
    have hj' : j < size := hj
    calc i * size + j < i * size + size := by omega
      _ = (i + 1) * size := by ring
      _ ≤ count * size := Nat.mul_le_mul_right size hi
  · rintro ⟨i, j⟩ ⟨-, hj⟩ ⟨i', j'⟩ ⟨-, hj'⟩ heq
    have hquotient := congrArg (· / size) heq
    have hrest := congrArg (· % size) heq
    simp only [Nat.mul_add_mod', Nat.mod_eq_of_lt hj, Nat.mod_eq_of_lt hj'] at hrest
    subst hrest
    have hi : i = i' := Nat.eq_of_mul_eq_mul_right (Nat.zero_lt_of_lt hj) (Nat.add_right_cancel heq)
    rw [hi]
  · intro p hp
    have hsize : 0 < size := Nat.pos_of_ne_zero fun h => by simp [h] at hp
    exact ⟨(p / size, p % size), ⟨Nat.div_lt_of_lt_mul (Nat.mul_comm size count ▸ hp), Nat.mod_lt p hsize⟩,
      Nat.div_add_mod' p size⟩

/-- Groups that are laid side by side split the box that they make up. -/
theorem splitsInto_scale (counts group : Extent) : (counts.scale group).SplitsInto group counts := by
  have hx := bijOn_mul_add counts.x group.x
  have hy := bijOn_mul_add counts.y group.y
  have hz := bijOn_mul_add counts.z group.z
  refine ⟨?_, ?_, ?_⟩
  · rintro ⟨⟨i, j, k⟩, ⟨a, b, c⟩⟩ ⟨⟨hi, hj, hk⟩, ⟨ha, hb, hc⟩⟩
    exact ⟨hx.mapsTo (Set.mk_mem_prod hi ha), hy.mapsTo (Set.mk_mem_prod hj hb),
      hz.mapsTo (Set.mk_mem_prod hk hc)⟩
  · rintro ⟨⟨i, j, k⟩, ⟨a, b, c⟩⟩ ⟨⟨hi, hj, hk⟩, ⟨ha, hb, hc⟩⟩ ⟨⟨i', j', k'⟩, ⟨a', b', c'⟩⟩
      ⟨⟨hi', hj', hk'⟩, ⟨ha', hb', hc'⟩⟩ heq
    have hxs : (i, a) = (i', a') :=
      hx.injOn (Set.mk_mem_prod hi ha) (Set.mk_mem_prod hi' ha') (congrArg (·.1) heq)
    have hys : (j, b) = (j', b') :=
      hy.injOn (Set.mk_mem_prod hj hb) (Set.mk_mem_prod hj' hb') (congrArg (·.2.1) heq)
    have hzs : (k, c) = (k', c') :=
      hz.injOn (Set.mk_mem_prod hk hc) (Set.mk_mem_prod hk' hc') (congrArg (·.2.2) heq)
    cases hxs
    cases hys
    cases hzs
    rfl
  · rintro ⟨p, q, r⟩ ⟨hp, hq, hr⟩
    obtain ⟨⟨i, a⟩, ⟨hi, ha⟩, rfl⟩ := hx.surjOn hp
    obtain ⟨⟨j, b⟩, ⟨hj, hb⟩, rfl⟩ := hy.surjOn hq
    obtain ⟨⟨k, c⟩, ⟨hk, hc⟩, rfl⟩ := hz.surjOn hr
    exact ⟨((i, j, k), (a, b, c)), ⟨⟨hi, hj, hk⟩, ⟨ha, hb, hc⟩⟩, rfl⟩

/-- The places in a box say how large it is. -/
theorem eq_of_places_eq (he : e.IsPos) (h : e.places = e'.places) : e = e' := by
  obtain ⟨hx, hy, hz⟩ := he
  have hne : (Set.Iio e.y ×ˢ Set.Iio e.z).Nonempty := ⟨(0, 0), hy, hz⟩
  obtain ⟨hx', hyz⟩ := (Set.prod_eq_prod_iff_of_nonempty (Set.Nonempty.prod ⟨0, hx⟩ hne)).1 h
  obtain ⟨hy', hz'⟩ := (Set.prod_eq_prod_iff_of_nonempty hne).1 hyz
  cases e
  cases e'
  congr
  · exact eq_of_forall_lt_iff (Set.ext_iff.1 hx')
  · exact eq_of_forall_lt_iff (Set.ext_iff.1 hy')
  · exact eq_of_forall_lt_iff (Set.ext_iff.1 hz')

/-- A grid splits into groups in one way at most, which is to lay them side by side. -/
theorem splitsInto_iff (hgrid : grid.IsPos) : grid.SplitsInto group counts ↔ counts.scale group = grid := by
  constructor
  · intro h
    have hplaces := h.image_eq.symm.trans (splitsInto_scale counts group).image_eq
    exact (eq_of_places_eq hgrid hplaces).symm
  · rintro rfl
    exact splitsInto_scale counts group

theorem exists_splitsInto_iff (hgrid : grid.IsPos) :
    (∃ counts, grid.SplitsInto group counts) ↔ group.Divides grid := by
  simp only [splitsInto_iff hgrid, divides_iff]

/-- The sizes of a divisor of a grid are not zero. -/
theorem IsPos.of_divides (hgrid : grid.IsPos) (h : group.Divides grid) : group.IsPos :=
  ⟨Nat.pos_of_dvd_of_pos h.1 hgrid.1, Nat.pos_of_dvd_of_pos h.2.1 hgrid.2.1,
    Nat.pos_of_dvd_of_pos h.2.2 hgrid.2.2⟩

end Extent

namespace Launch

variable {launch : Launch} {info : DeviceInfo}

/-- Words hold the number of work items and the number of places in a group. -/
structure Fits (launch : Launch) : Prop where
  grid : launch.grid.Fits
  group : ∀ group ∈ launch.group, group.Fits

theorem Fits.workItems_eq (h : launch.Fits) : launch.workItems = launch.grid.card := h.grid.volume_eq

/-- The launches whose grid is made up of whole groups that a device can hold. -/
structure Tileable (launch : Launch) (limit : ℕ) : Prop where
  grid_isPos : launch.grid.IsPos
  group_fits : ∀ group ∈ launch.group,
    group.IsPos ∧ group.card ≤ limit ∧ group.Divides launch.grid

theorem validate?_eq (launch : Launch) (info : DeviceInfo) :
    launch.validate? info = some (launch.validate info) := (Option.some_get _).symm

/-- A group is accepted if the device can hold it and it fills the grid. -/
theorem validateGroup?_eq_some_ok_iff {grid group : Extent} (hfits : group.Fits) :
    validateGroup? grid group info = some (.ok ()) ↔
      group.IsPos ∧ group.card ≤ info.maxGroupSize ∧ group.Divides grid := by
  -- the product that is compared is a word, and here it says what the sizes say
  rw [← hfits.volume_ne_zero_iff, ← hfits.volume_eq]
  unfold validateGroup?
  split
  case isTrue h =>
    -- the product rules out a size that is zero and a group that is too large
    refine iff_of_false (by simp) ?_
    rintro ⟨hvolume, hle, -⟩
    rcases h with h | h
    · exact hvolume h
    · exact Nat.not_lt.2 hle h
  case isFalse h =>
    obtain ⟨hvolume, hle⟩ := not_or.1 h
    rw [and_iff_right hvolume, and_iff_right (Nat.not_lt.1 hle),
      ← Extent.isMultipleOf?_eq_some_true_iff hvolume, grid.isMultipleOf?_eq_some hvolume]
    simp only [bind, Option.bind]
    split
    case isTrue hfills => simp [hfills]
    case isFalse hrest => simp [hrest]

/-- Without a group, the product of the sizes decides; with one, the group has to be accepted too. -/
theorem Fits.validate_eq_ok_iff (hfits : launch.Fits) (info : DeviceInfo) :
    launch.validate info = .ok () ↔ launch.Tileable info.maxGroupSize := by
  rw [← Option.some_inj, ← validate?_eq, validate?]
  split
  case isTrue hempty =>
    exact iff_of_false (by simp) fun h => hfits.grid.volume_ne_zero_iff.2 h.grid_isPos hempty
  case isFalse hvolume =>
    have hgrid : launch.grid.IsPos := hfits.grid.volume_ne_zero_iff.1 hvolume
    cases hgroup : launch.group with
    | none => exact iff_of_true rfl ⟨hgrid, by simp [hgroup]⟩
    | some group =>
      rw [validateGroup?_eq_some_ok_iff (hfits.group group hgroup)]
      exact ⟨fun h => ⟨hgrid, by simpa [hgroup]⟩, fun h => h.group_fits group hgroup⟩

/-- The grid of a launch with groups splits into them, and then in one way only. -/
theorem tileable_iff_splitsInto {limit : ℕ} :
    launch.Tileable limit ↔ launch.grid.IsPos ∧ ∀ group ∈ launch.group, group.card ≤ limit ∧
      ∃ counts : Extent, launch.grid.SplitsInto group counts ∧
        counts.card * group.card = launch.grid.card := by
  constructor
  · rintro ⟨hgrid, hgroup⟩
    refine ⟨hgrid, fun group hmem => ?_⟩
    obtain ⟨-, hle, hdivides⟩ := hgroup group hmem
    obtain ⟨counts, hscale⟩ := Extent.divides_iff.1 hdivides
    refine ⟨hle, counts, (Extent.splitsInto_iff hgrid).2 hscale, ?_⟩
    rw [← Extent.card_scale, hscale]
  · rintro ⟨hgrid, hgroup⟩
    refine ⟨hgrid, fun group hmem => ?_⟩
    obtain ⟨hle, counts, hsplits, -⟩ := hgroup group hmem
    have hdivides := (Extent.exists_splitsInto_iff hgrid).1 ⟨counts, hsplits⟩
    exact ⟨hgrid.of_divides hdivides, hle, hdivides⟩

/-- As long as words hold the products, exactly the launches are accepted whose sizes are positive and, where
a group is given, are multiples of the sizes of a group that the device can hold. These are the launches
whose grid splits into whole groups, as many of them as make up its work items. Whatever the sizes, nothing
is divided by zero. -/
theorem validate_acceptsTileable (launch : Launch) (info : DeviceInfo) :
    (launch.Fits →
      (launch.validate info = .ok () ↔ launch.Tileable info.maxGroupSize) ∧
      (launch.validate info = .ok () ↔ launch.grid.IsPos ∧ ∀ group ∈ launch.group,
        group.card ≤ info.maxGroupSize ∧ ∃ counts : Extent, launch.grid.SplitsInto group counts ∧
          counts.card * group.card = launch.workItems)) ∧
    launch.validate? info = some (launch.validate info) := by
  refine ⟨fun hfits => ?_, validate?_eq launch info⟩
  have hsizes := hfits.validate_eq_ok_iff info
  refine ⟨hsizes, ?_⟩
  rw [hfits.workItems_eq]
  exact hsizes.trans tileable_iff_splitsInto

/-- A grid of four groups in a plane; a grid that leaves a part of a group over; and a group without a size
in one direction, which is refused before the grid is divided. -/
theorem validate_acceptsTileable_plane :
    let group : Extent := ⟨16, 16, 1⟩
    let launch : Launch := ⟨⟨32, 32, 1⟩, some group⟩
    let ragged : Launch := ⟨⟨10, 1, 1⟩, some ⟨4, 1, 1⟩⟩
    let flat : Launch := ⟨⟨4, 4, 1⟩, some ⟨2, 0, 1⟩⟩
    (group ∈ launch.group ∧ ∃ counts : Extent, launch.grid.SplitsInto group counts ∧
        counts.card * group.card = launch.workItems) ∧
      ¬ ragged.Tileable 1024 ∧
      flat.validate? .simulated =
        some (.error (.invalidConfig "Work-group size (0) must be between 1 and 1024")) := by
  intro group launch ragged flat
  have haccepted : Launch.validate ⟨⟨32, 32, 1⟩, some ⟨16, 16, 1⟩⟩ .simulated = .ok () := rfl
  have hragged : Launch.validate ⟨⟨10, 1, 1⟩, some ⟨4, 1, 1⟩⟩ .simulated = .error (.invalidConfig
    "Global size [10, 1, 1] is not a multiple of local size [4, 1, 1]") := by cbv
  have hflat : Launch.validate ⟨⟨4, 4, 1⟩, some ⟨2, 0, 1⟩⟩ .simulated = .error (.invalidConfig
    "Work-group size (0) must be between 1 and 1024") := by cbv
  have hlaunch : launch.Fits := ⟨by decide, by rintro _ ⟨⟩; decide⟩
  have hrest : ragged.Fits := ⟨by decide, by rintro _ ⟨⟩; decide⟩
  have hgroup : group ∈ launch.group := rfl
  obtain ⟨-, hsplits⟩ := ((validate_acceptsTileable launch .simulated).1 hlaunch).2.1 haccepted
  refine ⟨⟨hgroup, (hsplits group hgroup).2⟩, fun htileable => ?_, ?_⟩
  · have hok := ((validate_acceptsTileable ragged .simulated).1 hrest).1.2 htileable
    rw [hragged] at hok
    cases hok
  · exact (validate_acceptsTileable flat .simulated).2.trans (congrArg some hflat)

end Launch

/-- A body runs over a grid of whole groups only, unless a product of sizes goes beyond a word. -/
theorem HostDevice.Executes.tileable {d : HostDevice} {handle : KernelHandle} {launch : Launch}
    {body : Kernel} {b : Binding} (h : d.Executes handle launch body b) (hfits : launch.Fits) :
    launch.Tileable d.info.maxGroupSize :=
  (hfits.validate_eq_ok_iff d.info).1 (HostDevice.prepare_eq_ok_iff.1 h.prepared).1

end PrecisionAudit
