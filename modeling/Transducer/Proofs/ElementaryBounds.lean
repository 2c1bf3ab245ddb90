import Transducer.Floating.Elementary
import Transducer.Proofs.Rounding

/-! Where the exponential and the logarithm lie. Only coarse bounds are needed of the series: the sum of a falling series
is at most its first term as often as there are terms, and the exponential has its constant term. -/

namespace Transducer

namespace Series

variable {bits value : Nat}

theorem shift_product_le {square : Nat} (small : square ≤ 2 ^ bits) (power : Nat) : (power * square) >>> bits ≤ power := by
  rw [Nat.shiftRight_eq_div_pow]
  apply Nat.div_le_of_le_mul
  rw [Nat.mul_comm power]
  exact Nat.mul_le_mul_right power small

theorem artanhTerms_le {square : Nat} (small : square ≤ 2 ^ bits) (terms power index : Nat) :
    artanhTerms bits square terms power index ≤ terms * power := by
  induction terms generalizing power index with
  | zero => exact Nat.zero_le _
  | succ terms ih =>
    have next := Nat.mul_le_mul_left terms (shift_product_le small power)
    have first := Nat.div_le_self power index
    have rest := ih ((power * square) >>> bits) (index + 2)
    rw [artanhTerms, Nat.succ_mul]
    split
    next => exact Nat.zero_le _
    next => omega

theorem artanh_le (small : value ≤ 2 ^ bits) : artanh bits value ≤ bits * value :=
  artanhTerms_le (Nat.le_trans (shift_product_le small value) small) bits value 1

theorem exp_zero (bits : Nat) : exp bits 0 = 2 ^ bits := by
  have none (terms index : Nat) : expTerms bits 0 terms 0 index = 0 := by cases terms <;> rfl
  rw [exp, none, Nat.add_zero]

theorem le_exp (bits value : Nat) : 2 ^ bits ≤ exp bits value := Nat.le_add_right ..

end Series

namespace Width

variable {width : Width}

/-- The magnitude of the number one. -/
def one (width : Width) : Nat := width.nearest (2 ^ width.scale) 1

theorem units_one : width.units width.one = 2 ^ width.scale := by cases width <;> decide +kernel

/-- More units than any logarithm of one plus a fraction has. -/
def ample (width : Width) : Nat := 2 ^ 12 * 2 ^ width.scale

theorem one_lt_infinity : width.one < width.infinity := by cases width <;> decide +kernel

end Width

namespace Floating

variable {width : Width} {x : Floating width}

/-- A number from zero to one. -/
structure Fraction (x : Floating width) : Prop where
  positive : x.negative = false
  most : x.magnitude ≤ width.one

theorem fraction_zero : Fraction (zero : Floating width) := ⟨rfl, Nat.zero_le _⟩

theorem fraction_ofQuotient {numerator denominator : Nat} (pos : 0 < denominator)
    (most : numerator ≤ 2 ^ width.scale * denominator) :
    Fraction (ofQuotient false numerator denominator : Floating width) where
  positive := rfl
  most := width.nearest_mono pos Nat.one_pos (by omega)

theorem Fraction.units_le (fraction : Fraction x) : width.units x.magnitude ≤ 2 ^ width.scale :=
  width.units_one ▸ width.units_strictMono.monotone fraction.most

/-- The exponential of a number that is not above zero is not above one. -/
theorem exp_fraction (number : x.isNaN = false) (most : x.rank ≤ 0) : Fraction (exp x) := by
  have vanishes (positive : x.negative = false) : x.magnitude = 0 := by
    simpa [rank, positive] using most
  have unscaled (positive : x.negative = false) :
      width.units x.magnitude * 2 ^ Series.workingBits / 2 ^ width.scale = 0 := by
    rw [vanishes positive, Width.units_zero, Nat.zero_mul, Nat.zero_div]
  unfold exp
  rw [number, if_neg Bool.false_ne_true]
  split
  next infinite =>
    have greatest : x.magnitude = width.infinity := of_decide_eq_true infinite
    split
    next => exact fraction_zero
    next sign =>
      have none := vanishes (Bool.eq_false_iff.mpr sign)
      have some := width.one_lt_infinity
      omega
  next =>
    dsimp only
    split
    next far =>
      split
      next => exact fraction_zero
      next sign =>
        rw [unscaled (Bool.eq_false_iff.mpr sign), Nat.zero_div] at far
        exact absurd far (Nat.not_lt_zero _)
    next =>
      split
      next =>
        -- the reciprocal of something that is at least one
        generalize width.units x.magnitude * 2 ^ Series.workingBits / 2 ^ width.scale = argument
        have least := Nat.le_trans (Series.le_exp Series.workingBits (argument % Series.logTwo Series.workingBits))
          (Nat.le_mul_of_pos_right _ (Nat.two_pow_pos (argument / Series.logTwo Series.workingBits)))
        exact fraction_ofQuotient (Nat.lt_of_lt_of_le (Nat.two_pow_pos _) least) (Nat.mul_le_mul_left _ least)
      next sign =>
        rw [unscaled (Bool.eq_false_iff.mpr sign), Nat.zero_mod, Nat.zero_div, Series.exp_zero]
        refine fraction_ofQuotient (Nat.two_pow_pos _) ?_
        rw [Nat.pow_zero, Nat.mul_one, Nat.mul_comm]

theorem Fraction.finite (fraction : Fraction x) : x.isNaN = false ∧ x.isInfinite = false := by
  have below := Nat.lt_of_le_of_lt fraction.most width.one_lt_infinity
  exact ⟨decide_eq_false (Nat.lt_asymm below), decide_eq_false (Nat.ne_of_lt below)⟩

theorem Fraction.units_eq (fraction : Fraction x) : x.units = width.units x.magnitude := by
  rw [units, fraction.positive, if_neg Bool.false_ne_true]

/-- The bits that a logarithm is summed with are few enough for a bound on its size. -/
theorem artanh_small {value one : Nat} (less : value ≤ one) (shifted : Nat) {bits : Nat} (few : bits ≤ 2 ^ 11) :
    2 * Series.artanh bits (value * 2 ^ bits / (one + shifted)) * one ≤ 2 ^ 12 * one * 2 ^ bits := by
  have ratio : value * 2 ^ bits / (one + shifted) ≤ 2 ^ bits :=
    Nat.div_le_of_le_mul (Nat.mul_le_mul_right _ (Nat.le_add_right_of_le less))
  have sum := Nat.le_trans (Series.artanh_le ratio) (Nat.mul_le_mul few ratio)
  calc 2 * Series.artanh bits (value * 2 ^ bits / (one + shifted)) * one
    _ ≤ 2 * (2 ^ 11 * 2 ^ bits) * one := Nat.mul_le_mul_right _ (Nat.mul_le_mul_left _ sum)
    _ = 2 ^ 12 * one * 2 ^ bits := by rw [← Nat.mul_assoc, Nat.mul_right_comm]; rfl

/-- The logarithm of one plus a fraction is a small number that is not negative. -/
theorem log1p_fraction (fraction : Fraction x) :
    (log1p x).negative = false ∧ (log1p x).magnitude ≤ width.nearest width.ample 1 := by
  obtain ⟨number, finite⟩ := fraction.finite
  have less := fraction.units_le
  have pos : 0 < 2 ^ width.scale := Nat.two_pow_pos _
  have few : Series.workingBits + width.scale ≤ 2 ^ 11 := by cases width <;> decide
  unfold log1p
  rw [number, finite, if_neg Bool.false_ne_true, if_neg Bool.false_ne_true]
  dsimp only
  rw [fraction.units_eq]
  split
  next =>
    have less : 2 ^ width.scale ≤ width.ample := Nat.le_mul_of_pos_left _ (by decide)
    refine ⟨fraction.positive, Nat.le_trans fraction.most (width.nearest_mono Nat.one_pos Nat.one_pos ?_)⟩
    exact Nat.mul_le_mul_right 1 less
  next =>
    rw [if_neg (by omega), if_neg (by omega), if_pos (by omega), decide_eq_false (by omega), Int.natAbs_natCast]
    refine ⟨rfl, width.nearest_mono (Nat.two_pow_pos _) Nat.one_pos ?_⟩
    rw [Nat.mul_one]
    exact artanh_small less _ (by omega)

/-- Where a fraction is taken away from one the logarithm has a minus sign. -/
theorem log1p_neg_fraction (fraction : Fraction x) :
    (log1p x.neg).isNaN = false ∧ (log1p x.neg).negative = true := by
  obtain ⟨number, finite⟩ := fraction.finite
  have less := fraction.units_le
  have sign : x.neg.negative = true := by rw [neg, fraction.positive]; rfl
  have value : x.neg.units = -(width.units x.magnitude : Int) := if_pos sign
  unfold log1p
  rw [show x.neg.isNaN = false from number, show x.neg.isInfinite = false from finite, if_neg Bool.false_ne_true,
    if_neg Bool.false_ne_true]
  dsimp only
  rw [value]
  split
  next => exact ⟨number, sign⟩
  next some =>
    have below : -(width.units x.magnitude : Int) < 0 := by omega
    rw [if_neg (by omega)]
    split
    next => exact ⟨decide_eq_false (Nat.lt_irrefl _), rfl⟩
    next =>
      split
      next => exact ⟨isNaN_ofQuotient .., decide_eq_true below⟩
      next => exact ⟨isNaN_ofQuotient .., rfl⟩

end Floating

end Transducer
