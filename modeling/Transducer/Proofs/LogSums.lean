import Transducer.Proofs.ElementaryBounds
import Transducer.Proofs.OrderLaws

/-! The logarithm of a sum or of a difference never falls to negative infinity, since what is taken from the smaller of
two logarithms is too little to matter beside the lowest finite number. Rounding and changes of width keep order, so it
is enough to see where the lowest number goes. The plain sum of two numbers falls as soon as it is rounded there. -/

namespace Transducer

namespace Width

variable {width target : Width} {magnitude more : Nat}

/-- Twice the least value in units that is rounded to infinity, halfway between the greatest finite number and the
number that would come next. -/
def overflow (width : Width) : Nat := width.units (width.infinity - 1) + width.units width.infinity

theorem nearest_lt_infinity_iff (width : Width) (value : Nat) :
    width.nearest value 1 < width.infinity ↔ 2 * value < width.overflow := by
  have last : width.infinity - 1 + 1 = width.infinity := by cases width <;> rfl
  have even : width.infinity % 2 = 0 := by cases width <;> decide
  have below : width.infinity - 1 < width.infinity := Nat.sub_one_lt (Nat.ne_of_gt (Floating.infinity_pos width))
  have reached : width.infinity - 1 < width.nearest value 1 ↔ _ := lt_nearest_iff width Nat.one_pos below
  rw [last, Reaches, Nat.mul_one] at reached
  change _ ↔ _ < width.units (width.infinity - 1) + width.units width.infinity
  omega

end Width

namespace Floating

variable {width target : Width} {x y : Floating width}

/-- The least finite number. -/
def lowest (width : Width) : Floating width :=
  ⟨true, width.infinity - 1, Nat.lt_of_le_of_lt (Nat.sub_le ..) width.infinity_lt_signBit⟩

theorem lowest_le (finite : x.isFinite = true) : (lowest width).rank ≤ x.rank := by
  have small : x.magnitude < width.infinity := of_decide_eq_true finite
  have least : (lowest width).rank = -((width.infinity - 1 : Nat) : Int) := rfl
  rw [least, rank]
  split <;> omega

theorem number_of_finite (finite : x.isFinite = true) : x.isNaN = false :=
  decide_eq_false (Nat.lt_asymm (of_decide_eq_true finite))

theorem not_positiveInfinity (finite : x.isFinite = true) : x.isPositiveInfinity = false := by
  have less : x.magnitude < width.infinity := of_decide_eq_true finite
  simp [isPositiveInfinity, isInfinite, Nat.ne_of_lt less]

end Floating

namespace Number

open Floating

variable {width : Width} {x y : Floating width}

theorem isLog_iff : isLog x = true ↔ x.isNaN = false ∧ -(width.infinity : Int) < x.rank := by
  have pos := infinity_pos width
  unfold isLog isNegativeInfinity
  rw [Bool.and_eq_true, Bool.not_eq_true', Bool.not_eq_true']
  refine and_congr_right fun number => ?_
  have bounded := magnitude_le number
  unfold rank
  cases x.negative with
  | false => exact iff_of_true (Bool.and_false _) (by simp; omega)
  | true =>
    rw [Bool.and_true, isInfinite, decide_eq_false_iff_not, if_pos rfl]
    omega

theorem finite_of_isLog (inside : isLog x = true) (bounded : x.isPositiveInfinity = false) : x.isFinite = true := by
  obtain ⟨number, above⟩ := isLog_iff.mp inside
  have most := magnitude_le number
  apply decide_eq_true
  unfold isPositiveInfinity isInfinite at bounded
  unfold rank at above
  cases sign : x.negative with
  | false =>
    rw [sign, Bool.not_false, Bool.and_true] at bounded
    exact Nat.lt_of_le_of_ne most (of_decide_eq_false bounded)
  | true =>
    rw [sign, if_pos rfl] at above
    omega

/-- The sum of finite numbers stays a logarithm down to the value that is rounded to negative infinity. -/
theorem isLog_add (one : x.isFinite = true) (other : y.isFinite = true) :
    isLog (x + y) = true ↔ -(width.overflow : Int) < 2 * (x.units + y.units) := by
  obtain ⟨number, rank⟩ := rank_add one other
  have pos : 0 < width.infinity := infinity_pos width
  have some : 0 < width.overflow := by cases width <;> decide +kernel
  have finite := width.nearest_lt_infinity_iff (x.units + y.units).natAbs
  rw [isLog_iff, rank, rank_ofUnits]
  simp only [number, true_and]
  split <;> omega

theorem isFinite_wide (finite : x.isFinite = true) : (wide x).isFinite = true := by
  have small : x.magnitude < width.infinity := of_decide_eq_true finite
  have last : width.resized .double (width.infinity - 1) < Width.double.infinity := by
    cases width <;> decide +kernel
  apply decide_eq_true
  rw [wide, (resize_spec .double (number_of_finite finite)).2.2]
  exact Nat.lt_of_le_of_lt (Width.resized_mono (Nat.le_sub_one_of_lt small) (Nat.sub_le ..)) last

theorem units_wide_mono (finite : x.isFinite = true) (finite' : y.isFinite = true) (less : x.rank ≤ y.rank) :
    (wide x).units ≤ (wide y).units :=
  units_mono (rank_resize_mono .double (number_of_finite finite) (number_of_finite finite') less)

/-- The way from a logarithm up to a greater one leads down from zero. -/
theorem distance_le (one : x.isFinite = true) (other : y.isFinite = true) (less : x.rank ≤ y.rank) :
    (wide x - wide y).isNaN = false ∧ (wide x - wide y).rank ≤ 0 := by
  have wider := units_wide_mono one other less
  obtain ⟨number, rank⟩ := rank_add (isFinite_wide one) (show (wide y).neg.isFinite = true from isFinite_wide other)
  have rounded : (ofUnits ((wide x).units + (wide y).neg.units) : Floating .double).rank ≤
      (ofUnits 0 : Floating .double).rank := by
    apply rank_ofUnits_mono
    rw [units_neg]
    omega
  rw [rank_ofUnits_zero] at rounded
  exact ⟨number, rank ▸ rounded⟩

/-- What the exponent of a sum is raised to is no more than one. -/
theorem exp_distance (one : x.isFinite = true) (other : y.isFinite = true) (less : x.rank ≤ y.rank) :
    Fraction (wide x - wide y).exp := by
  obtain ⟨number, most⟩ := distance_le one other less
  exact exp_fraction number most

/-- What is not much further down than the lowest number is narrowed to a logarithm. -/
theorem isLog_narrow {result : Floating .double} (number : result.isNaN = false)
    (least : (ofUnits ((wide (lowest width)).units - Width.double.ample) : Floating .double).rank ≤ result.rank) :
    isLog (result.resize width) = true := by
  have kept : -(width.infinity : Int) <
      ((ofUnits ((wide (lowest width)).units - Width.double.ample) : Floating .double).resize width).rank := by
    cases width <;> decide +kernel
  have rounded := rank_resize_mono width (isNaN_ofUnits _) number least
  exact isLog_iff.mpr ⟨(resize_spec width number).1, Int.lt_of_lt_of_le kept rounded⟩

theorem isLog_narrow_sum {change : Floating .double} (one : x.isFinite = true) (other : change.isFinite = true)
    (least : -(Width.double.ample : Int) ≤ change.units) : isLog ((wide x + change).resize width) = true := by
  have finite : (lowest width).isFinite = true := by cases width <;> decide
  have deepest := units_wide_mono finite one (lowest_le one)
  obtain ⟨number, rank⟩ := rank_add (isFinite_wide one) other
  apply isLog_narrow number
  rw [rank]
  apply rank_ofUnits_mono
  omega

theorem isLog_narrow_excess (one : x.isFinite = true) (other : y.isFinite = true) (less : x.rank ≤ y.rank) :
    isLog ((wide x - logExcess x y).resize width) = true := by
  obtain ⟨positive, most⟩ := log1p_fraction (exp_distance one other less)
  have exactly : Width.double.units (Width.double.nearest Width.double.ample 1) = Width.double.ample := by decide +kernel
  have below : Width.double.nearest Width.double.ample 1 < Width.double.infinity := by decide +kernel
  have units := Nat.le_trans (Width.double.units_strictMono.monotone most) (Nat.le_of_eq exactly)
  have finite : (logExcess x y).neg.isFinite = true := decide_eq_true (Nat.lt_of_le_of_lt most below)
  apply isLog_narrow_sum one finite
  rw [units_neg, Floating.units, logExcess, positive, if_neg Bool.false_ne_true]
  omega

theorem ordered_cases (number : x.isNaN = false) (other : y.isNaN = false) :
    (ordered x y = (x, y) ∧ x.rank ≤ y.rank) ∨ (ordered x y = (y, x) ∧ y.rank ≤ x.rank) := by
  have compared : x.le y = decide (x.rank ≤ y.rank) := by simp [Floating.le, number, other]
  unfold ordered
  rw [compared]
  by_cases less : x.rank ≤ y.rank
  · exact .inl ⟨if_pos (decide_eq_true less), less⟩
  · exact .inr ⟨if_neg (by simpa using less), by omega⟩

theorem isLog_logPlus (insideX : isLog x = true) (insideY : isLog y = true) : isLog (logPlus x y) = true := by
  unfold logPlus
  split
  next => exact insideY
  next boundedX =>
    split
    next => exact insideX
    next boundedY =>
      have one := finite_of_isLog insideX (Bool.eq_false_iff.mpr boundedX)
      have other := finite_of_isLog insideY (Bool.eq_false_iff.mpr boundedY)
      rcases ordered_cases (number_of_finite one) (number_of_finite other) with ⟨same, less⟩ | ⟨same, less⟩
      · rw [same]
        exact isLog_narrow_excess one other less
      · rw [same]
        exact isLog_narrow_excess other one less

/-- A finite number and the infinity above it. -/
theorem add_infinite {infinite : Floating width} (one : x.isFinite = true) (number : infinite.isNaN = false)
    (unbounded : infinite.isInfinite = true) : x + infinite = infinite := by
  have bounded : x.isInfinite = false := decide_eq_false (Nat.ne_of_lt (of_decide_eq_true one))
  change add x infinite = _
  simp [add, number_of_finite one, number, bounded, unbounded]

/-- A difference takes off a logarithm with a minus sign, so that it is above the logarithm that it starts from. -/
theorem isLog_logMinus (one : x.isFinite = true) (other : y.isFinite = true) (less : x.rank ≤ y.rank) :
    isLog (logMinus x y) = true := by
  obtain ⟨number, sign⟩ := log1p_neg_fraction (exp_distance one other less)
  unfold logMinus
  change isLog ((wide x + ((wide x - wide y).exp.neg.log1p).neg).resize width) = true
  generalize (wide x - wide y).exp.neg.log1p = taken at *
  have positive : taken.neg.negative = false := by rw [neg, sign]; rfl
  cases unbounded : taken.isInfinite with
  | false =>
    apply isLog_narrow_sum one
    · exact decide_eq_true (Nat.lt_of_le_of_ne (magnitude_le number) (of_decide_eq_false unbounded))
    · rw [Floating.units, positive, if_neg Bool.false_ne_true]
      omega
  | true =>
    -- nothing is left of equal powers
    have greatest : taken.neg.rank = (Width.double.infinity : Int) := by
      unfold rank
      rw [positive, if_neg Bool.false_ne_true]
      exact congrArg Int.ofNat (of_decide_eq_true unbounded)
    have all : taken.neg = .infinity := eq_infinity number (Int.le_of_eq greatest.symm)
    have sum : wide x + taken.neg = .infinity := by
      rw [all]
      exact add_infinite (isFinite_wide one) isNaN_infinity (decide_eq_true rfl)
    rw [sum]
    cases width <;> decide +kernel

end Number

end Transducer
