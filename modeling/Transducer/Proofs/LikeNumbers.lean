import Transducer.Proofs.LegibleWeights
import Transducer.Proofs.LogSums

/-! Numbers that no comparison tells apart. Only the two zeros are such numbers without being the same, and whatever is
no number counts as one. Sums, negations and changes of width do not tell them apart either, since all of them work on
the exact value, which both zeros have. -/

namespace Transducer

namespace Floating

variable {width target : Width} {x x' y y' : Floating width}

theorem natAbs_rank (x : Floating width) : x.rank.natAbs = x.magnitude := by
  unfold rank
  split <;> omega

theorem units_congr (same : x.rank = y.rank) : x.units = y.units :=
  Int.le_antisymm (units_mono (Int.le_of_eq same)) (units_mono (Int.le_of_eq same.symm))

theorem isInfinite_congr (same : x.rank = y.rank) : x.isInfinite = y.isInfinite := by
  unfold isInfinite
  rw [← natAbs_rank x, ← natAbs_rank y, same]

/-- An infinite number has its place alone. -/
theorem eq_of_infinite (same : x.equal y = true) (infinite : y.isInfinite = true) : x = y := by
  obtain ⟨number, other, ranks⟩ := equal_iff_rank.mp same
  refine (eq_or_zero_of_rank_eq number other ranks).resolve_right fun zeros => ?_
  exact Nat.ne_of_gt (infinity_pos width) ((of_decide_eq_true infinite).symm.trans zeros.2)

theorem finite_of_bounded (number : x.isNaN = false) (bounded : x.isInfinite = false) : x.isFinite = true :=
  decide_eq_true (Nat.lt_of_le_of_ne (magnitude_le number) (of_decide_eq_false bounded))

theorem isNaN_add_of_none (none : x.isNaN = true ∨ y.isNaN = true) : (x + y).isNaN = true := by
  have refused : (x.isNaN || y.isNaN) = true := Bool.or_eq_true_iff.mpr none
  change (add x y).isNaN = true
  rw [add, if_pos refused]
  exact isNaN_nan

/-- The sum of numbers one of which is infinite. -/
theorem add_of_infinite (number : x.isNaN = false) (other : y.isNaN = false) :
    (x.isInfinite = true → x + y = if y.isInfinite && x.negative != y.negative then nan else x) ∧
    (x.isInfinite = false → y.isInfinite = true → x + y = y) := by
  change (_ → add x y = _) ∧ (_ → _ → add x y = y)
  unfold add
  rw [number, other, Bool.or_self, if_neg Bool.false_ne_true]
  refine ⟨fun infinite => if_pos infinite, fun bounded infinite => ?_⟩
  rw [if_neg (Bool.eq_false_iff.mp bounded), if_pos infinite]

theorem add_comm (x y : Floating width) : x + y = y + x := by
  change add x y = add y x
  unfold add
  rw [Bool.or_comm y.isNaN, Int.add_comm y.units, Bool.and_comm y.negative]
  split
  next => rfl
  next =>
    by_cases infiniteX : x.isInfinite = true <;> by_cases infiniteY : y.isInfinite = true
    all_goals simp only [infiniteX, infiniteY, if_true, if_false, Bool.true_and, Bool.false_and, Bool.false_eq_true]
    by_cases signs : x.negative = y.negative
    · have same : x = y := by
        obtain ⟨negative, magnitude, bound⟩ := x
        obtain ⟨negative', magnitude', bound'⟩ := y
        obtain rfl : magnitude = width.infinity := of_decide_eq_true infiniteX
        obtain rfl : magnitude' = width.infinity := of_decide_eq_true infiniteY
        obtain rfl : negative = negative' := signs
        rfl
      rw [same]
    · simp [signs, Ne.symm signs]

theorem isNaN_add_of_finite (one : x.isFinite = true) (number : y.isNaN = false) : (x + y).isNaN = false := by
  cases infinite : y.isInfinite with
  | true =>
    rw [Number.add_infinite one number infinite]
    exact number
  | false => exact (rank_add one (finite_of_bounded number infinite)).1

namespace Alike

theorem of_rank (number : x.isNaN = false) (other : y.isNaN = false) (same : x.rank = y.rank) : x.Alike y :=
  .inl (equal_iff_rank.mpr ⟨number, other, same⟩)

theorem equal (alike : x.Alike y) (number : x.isNaN = false) : x.equal y = true :=
  alike.resolve_right fun none => Bool.false_ne_true (number.symm.trans none.1)

theorem isPositiveInfinity_eq (alike : x.Alike y) : x.isPositiveInfinity = y.isPositiveInfinity := by
  rcases alike with same | ⟨none, none'⟩
  · cases infinite : y.isInfinite with
    | true => rw [eq_of_infinite same infinite]
    | false =>
      have bounded := isInfinite_congr (equal_iff_rank.mp same).2.2
      rw [isPositiveInfinity, isPositiveInfinity, bounded, infinite, Bool.false_and, Bool.false_and]
  · have bounded {z : Floating width} (none : z.isNaN = true) : z.isInfinite = false :=
      decide_eq_false (Nat.ne_of_gt (of_decide_eq_true none))
    rw [isPositiveInfinity, isPositiveInfinity, bounded none, bounded none', Bool.false_and, Bool.false_and]

theorem neg (alike : x.Alike y) : x.neg.Alike y.neg := by
  have ranks (z : Floating width) : z.neg.rank = -z.rank := by
    cases sign : z.negative <;> simp [Floating.rank, Floating.neg, sign]
  rcases alike with same | none
  · obtain ⟨number, other, same⟩ := equal_iff_rank.mp same
    exact of_rank number other (by rw [ranks, ranks, same])
  · exact .inr none

theorem resize (target : Width) (alike : x.Alike y) : (x.resize target).Alike (y.resize target) := by
  rcases alike with same | ⟨none, none'⟩
  · obtain ⟨number, other, same⟩ := equal_iff_rank.mp same
    apply of_rank (resize_spec target number).1 (resize_spec target other).1
    exact Int.le_antisymm (rank_resize_mono target number other (Int.le_of_eq same))
      (rank_resize_mono target other number (Int.le_of_eq same.symm))
  · have lost {z : Floating width} (none : z.isNaN = true) : z.resize target = nan := if_pos none
    rw [lost none, lost none']
    exact .refl nan

theorem add (first : x.Alike x') (second : y.Alike y') : (x + y).Alike (x' + y') := by
  rcases first with first | ⟨none, none'⟩
  case inr => exact .inr ⟨isNaN_add_of_none (.inl none), isNaN_add_of_none (.inl none')⟩
  rcases second with second | ⟨none, none'⟩
  case inr => exact .inr ⟨isNaN_add_of_none (.inr none), isNaN_add_of_none (.inr none')⟩
  obtain ⟨numberX, numberX', ranksX⟩ := equal_iff_rank.mp first
  obtain ⟨numberY, numberY', ranksY⟩ := equal_iff_rank.mp second
  have infinitiesX := isInfinite_congr ranksX
  have infinitiesY := isInfinite_congr ranksY
  cases infiniteX : x'.isInfinite with
  | true =>
    obtain rfl := eq_of_infinite first infiniteX
    cases infiniteY : y'.isInfinite with
    | true =>
      obtain rfl := eq_of_infinite second infiniteY
      exact .refl _
    | false =>
      rw [infiniteY] at infinitiesY
      rw [(add_of_infinite numberX numberY).1 infiniteX, (add_of_infinite numberX numberY').1 infiniteX, infiniteY,
        infinitiesY]
      exact .refl x
  | false =>
    rw [infiniteX] at infinitiesX
    cases infiniteY : y'.isInfinite with
    | true =>
      obtain rfl := eq_of_infinite second infiniteY
      rw [(add_of_infinite numberX numberY).2 infinitiesX infiniteY,
        (add_of_infinite numberX' numberY).2 infiniteX infiniteY]
      exact .refl y
    | false =>
      rw [infiniteY] at infinitiesY
      have sum := rank_add (finite_of_bounded numberX infinitiesX) (finite_of_bounded numberY infinitiesY)
      have sum' := rank_add (finite_of_bounded numberX' infiniteX) (finite_of_bounded numberY' infiniteY)
      apply of_rank sum.1 sum'.1
      rw [sum.2, sum'.2, units_congr ranksX, units_congr ranksY]

theorem sub (first : x.Alike x') (second : y.Alike y') : (x - y).Alike (x' - y') := first.add second.neg

end Alike

/-- A zero leaves a finite number what it is, up to the sign of zero. -/
theorem add_zero (finite : x.isFinite = true) : (x + zero).Alike x := by
  have none : (zero : Floating width).isFinite = true := decide_eq_true (infinity_pos width)
  obtain ⟨number, rank⟩ := rank_add finite none
  apply Alike.of_rank number (number_of_finite finite)
  have nothing : (zero : Floating width).units = 0 := congrArg Int.ofNat Width.units_zero
  rw [rank, nothing, Int.add_zero, rank_ofUnits_units (magnitude_le (number_of_finite finite))]

end Floating

end Transducer
