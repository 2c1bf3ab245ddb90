import Transducer.Proofs.Closure
import Transducer.Proofs.LikeNumbers
import Transducer.Proofs.SignedPairs

/-! Subtraction of signed log weights. Sums can be exchanged, differences change sign when they are turned around, and a
weight taken from itself leaves zero, however the exponential and the logarithm are computed, as long as neither of them
tells the two zeros apart. The number zero never carries a minus sign. That is not owed to the type in which weights are
stored: pairs of any sign and any number that are computed with in the same way have no such zero among them either. -/

namespace Transducer

open Weight

variable {width : Width}

namespace Arithmetic

/-- The operations that round once, with an exponential and a logarithm of one's own. -/
def elementary (exp log1p : Floating .double → Floating .double) : Arithmetic width :=
  { rounding width with exp := exp, log1p := log1p }

/-- Neither function tells the two zeros apart. -/
structure ZerosAlike (exp log1p : Floating .double → Floating .double) : Prop where
  exp : (exp .zero).equal (exp Floating.zero.neg) = true
  log1p : (log1p .zero).equal (log1p Floating.zero.neg) = true

/-- One and a power of a negative exponent have a sum and a difference with a logarithm. -/
def Numeric (exp log1p : Floating .double → Floating .double) : Prop :=
  ∀ x, x.isNaN = false → x.rank ≤ 0 → (log1p (exp x)).isNaN = false ∧ (log1p (exp x).neg).isNaN = false

theorem zerosAlike_rounding : ZerosAlike Floating.exp Floating.log1p := by
  constructor <;> decide +kernel

theorem numeric_rounding : Numeric Floating.exp Floating.log1p := by
  intro x number most
  have fraction := Floating.exp_fraction number most
  have bounded := Nat.le_trans (Floating.log1p_fraction fraction).2 (Nat.min_le_left ..)
  exact ⟨decide_eq_false (Nat.not_lt.mpr bounded), (Floating.log1p_neg_fraction fraction).1⟩

/-- What a function gives at equal numbers is equal, or it is the same thing that is no number. -/
theorem same_or_equal {f : Floating .double → Floating .double} (zeros : (f .zero).equal (f Floating.zero.neg) = true)
    {x y : Floating .double} (given : x = y ∨ x.equal y = true) : f x = f y ∨ (f x).equal (f y) = true := by
  rcases given with rfl | same
  · exact .inl rfl
  obtain ⟨number, other, ranks⟩ := Floating.equal_iff_rank.mp same
  rcases Floating.eq_or_zero_of_rank_eq number other ranks with rfl | ⟨none, none'⟩
  · exact .inl rfl
  have turned : (f Floating.zero.neg).equal (f .zero) = true := by
    obtain ⟨number, other, ranks⟩ := Floating.equal_iff_rank.mp zeros
    exact Floating.equal_iff_rank.mpr ⟨other, number, ranks.symm⟩
  obtain ⟨negative, magnitude, bound⟩ := x
  obtain ⟨negative', magnitude', bound'⟩ := y
  obtain rfl : magnitude = 0 := none
  obtain rfl : magnitude' = 0 := none'
  cases negative <;> cases negative'
  case false.false => exact .inl rfl
  case false.true => exact .inr zeros
  case true.false => exact .inr turned
  case true.true => exact .inl rfl

variable {exp log1p : Floating .double → Floating .double} {x y low high : Floating width}

theorem logPlus_of_finite {arithmetic : Arithmetic width} (one : x.isFinite = true) (other : y.isFinite = true)
    (ordered : Number.ordered x y = (low, high)) : arithmetic.logPlus x y =
      arithmetic.narrow (arithmetic.wideSub (arithmetic.widen low) (arithmetic.log1p
        (arithmetic.exp (arithmetic.wideSub (arithmetic.widen low) (arithmetic.widen high))))) := by
  rw [logPlus, Floating.not_positiveInfinity one, Floating.not_positiveInfinity other, ordered]
  rfl

/-- Equal numbers may change places in a sum. -/
theorem logSum_alike (zeros : ZerosAlike exp log1p) (one : x.isFinite = true) (other : y.isFinite = true)
    (same : x.rank = y.rank) :
    ((Number.wide x - log1p (exp (Number.wide x - Number.wide y))).resize width).Alike
      ((Number.wide y - log1p (exp (Number.wide y - Number.wide x))).resize width) := by
  have alike : x.Alike y := .of_rank (Floating.number_of_finite one) (Floating.number_of_finite other) same
  have alike' : y.Alike x := .of_rank (Floating.number_of_finite other) (Floating.number_of_finite one) same.symm
  have wides : (Number.wide x).Alike (Number.wide y) := alike.resize .double
  have distances : (Number.wide x - Number.wide y).equal (Number.wide y - Number.wide x) = true :=
    (wides.sub (alike'.resize .double)).equal (Number.distance_le one other (Int.le_of_eq same)).1
  have powers := same_or_equal zeros.exp (.inr distances)
  have logarithms : (log1p (exp (Number.wide x - Number.wide y))).Alike
      (log1p (exp (Number.wide y - Number.wide x))) := by
    rcases same_or_equal zeros.log1p powers with same | same
    · rw [same]
      exact .refl _
    · exact .inl same
  exact (wides.sub logarithms).resize width

theorem logPlus_comm (zeros : ZerosAlike exp log1p) (one : x.isFinite = true) (other : y.isFinite = true) :
    ((elementary exp log1p).logPlus x y).Alike ((elementary exp log1p).logPlus y x) := by
  have number := Floating.number_of_finite one
  have number' := Floating.number_of_finite other
  rcases Number.ordered_cases number number' with ⟨first, less⟩ | ⟨first, less⟩ <;>
    rcases Number.ordered_cases number' number with ⟨second, more⟩ | ⟨second, more⟩
  all_goals rw [logPlus_of_finite one other first, logPlus_of_finite other one second]
  case inl.inl => exact logSum_alike zeros one other (Int.le_antisymm less more)
  case inl.inr => exact .refl _
  case inr.inl => exact .refl _
  case inr.inr => exact logSum_alike zeros other one (Int.le_antisymm less more)

theorem isNaN_narrow_sub {taken : Floating .double} (one : x.isFinite = true) (number : taken.isNaN = false) :
    ((Number.wide x - taken).resize width).isNaN = false :=
  (Floating.resize_spec width (Floating.isNaN_add_of_finite (Number.isFinite_wide one)
    (show taken.neg.isNaN = false from number))).1

theorem isNaN_logPlus (numeric : Numeric exp log1p) (one : x.isFinite = true) (other : y.isFinite = true) :
    ((elementary exp log1p).logPlus x y).isNaN = false := by
  have sum {x y : Floating width} (one : x.isFinite = true) (other : y.isFinite = true) (less : x.rank ≤ y.rank) :
      ((Number.wide x - log1p (exp (Number.wide x - Number.wide y))).resize width).isNaN = false := by
    obtain ⟨number, most⟩ := Number.distance_le one other less
    exact isNaN_narrow_sub one (numeric _ number most).1
  rcases Number.ordered_cases (Floating.number_of_finite one) (Floating.number_of_finite other) with
    ⟨ordered, less⟩ | ⟨ordered, less⟩
  · rw [logPlus_of_finite one other ordered]
    exact sum one other less
  · rw [logPlus_of_finite one other ordered]
    exact sum other one less

theorem isNaN_logMinus (numeric : Numeric exp log1p) (one : x.isFinite = true) (other : y.isFinite = true)
    (less : x.rank ≤ y.rank) : ((elementary exp log1p).logMinus x y).isNaN = false := by
  obtain ⟨number, most⟩ := Number.distance_le one other less
  exact isNaN_narrow_sub one (numeric _ number most).2

end Arithmetic

namespace SignedLog

variable {arithmetic : Arithmetic width} {w x y : SignedLog width}

theorem zero_infinite : (zero : SignedLog width).value.isPositiveInfinity = true := by
  cases width <;> rfl

/-- There is one zero only. -/
theorem eq_zero (infinite : w.value.isPositiveInfinity = true) : w = zero := by
  obtain ⟨negative, ⟨sign, magnitude, bound⟩, zero_positive⟩ := w
  obtain rfl : negative = false := zero_positive infinite
  obtain ⟨greatest, positive⟩ := Bool.and_eq_true_iff.mp infinite
  obtain rfl : magnitude = width.infinity := of_decide_eq_true greatest
  obtain rfl : sign = false := Bool.not_eq_eq_eq_not.mp positive
  rfl

theorem negate_make (negative : Bool) (value : Floating width) :
    (make negative value).negate = make (!negative) value := by
  cases infinite : value.isPositiveInfinity <;> cases negative <;> simp [negate, make, infinite]

theorem negate_negate (w : SignedLog width) : w.negate.negate = w := by
  rw [show w.negate = make (!w.negative) w.value from rfl, negate_make, Bool.not_not, make_self]

theorem negate_zero : (zero : SignedLog width).negate = zero := eq_zero zero_infinite

theorem negative_negate (finite : w.value.isPositiveInfinity = false) : w.negate.negative = !w.negative := by
  simp [negate, make, finite]

theorem value_negate (w : SignedLog width) : w.negate.value = w.value := rfl

theorem member_of_finite (finite : w.value.isFinite = true) : w.member = true := by
  have small : w.value.magnitude < width.infinity := of_decide_eq_true finite
  simp [member, Number.isLog, Floating.isNegativeInfinity, Floating.isInfinite, Floating.number_of_finite finite,
    Nat.ne_of_lt small]

theorem eq_zero_or_finite (inside : w.member = true) : w = zero ∨ w.value.isFinite = true := by
  cases infinite : w.value.isPositiveInfinity with
  | true => exact .inl (eq_zero infinite)
  | false => exact .inr (Number.finite_of_isLog inside infinite)

section Sums

theorem zero_plusBy (inside : w.member = true) : plusBy arithmetic zero w = w := by
  have zeroInside : (zero : SignedLog width).member = true := by cases width <;> rfl
  simp [plusBy, zeroInside, inside, zero_infinite]

theorem plusBy_zero (inside : w.member = true) : plusBy arithmetic w zero = w := by
  rcases eq_zero_or_finite inside with rfl | finite
  · exact zero_plusBy inside
  · have zeroInside : (zero : SignedLog width).member = true := by cases width <;> rfl
    simp [plusBy, zeroInside, inside, zero_infinite, Floating.not_positiveInfinity finite]

theorem zero_timesBy (inside : w.member = true) : timesBy arithmetic zero w = zero := by
  have zeroInside : (zero : SignedLog width).member = true := by cases width <;> rfl
  simp [timesBy, zeroInside, inside, zero_infinite]

theorem timesBy_zero (inside : w.member = true) : timesBy arithmetic w zero = zero := by
  have zeroInside : (zero : SignedLog width).member = true := by cases width <;> rfl
  simp [timesBy, zeroInside, inside, zero_infinite]

variable (one : x.value.isFinite = true) (other : y.value.isFinite = true)

include one other

theorem plusBy_of_finite : plusBy arithmetic x y =
    if x.negative = y.negative then make x.negative (arithmetic.logPlus x.value y.value)
    else if x.value.equal y.value then zero
    else if x.value.lt y.value then make x.negative (arithmetic.logMinus x.value y.value)
    else make y.negative (arithmetic.logMinus y.value x.value) := by
  simp [plusBy, member_of_finite one, member_of_finite other, Floating.not_positiveInfinity one,
    Floating.not_positiveInfinity other]

theorem timesBy_of_finite :
    timesBy arithmetic x y = make (x.negative != y.negative) (arithmetic.add x.value y.value) := by
  simp [timesBy, member_of_finite one, member_of_finite other, Floating.not_positiveInfinity one,
    Floating.not_positiveInfinity other]

end Sums

section Members

variable (insideX : x.member = true) (insideY : y.member = true)

include insideX insideY

theorem negate_plusBy : (plusBy arithmetic x y).negate = plusBy arithmetic x.negate y.negate := by
  rcases eq_zero_or_finite insideX with rfl | one
  · rw [negate_zero, zero_plusBy insideY, zero_plusBy (w := y.negate) insideY]
  rcases eq_zero_or_finite insideY with rfl | other
  · rw [negate_zero, plusBy_zero insideX, plusBy_zero (w := x.negate) insideX]
  rw [plusBy_of_finite one other, plusBy_of_finite (x := x.negate) (y := y.negate) one other]
  simp only [negative_negate (Floating.not_positiveInfinity one), negative_negate (Floating.not_positiveInfinity other),
    value_negate, apply_ite negate, negate_make, negate_zero, Bool.not_inj_iff]

theorem negate_timesBy : (timesBy arithmetic x y).negate = timesBy arithmetic x.negate y := by
  rcases eq_zero_or_finite insideX with rfl | one
  · rw [negate_zero, zero_timesBy insideY, negate_zero]
  rcases eq_zero_or_finite insideY with rfl | other
  · rw [timesBy_zero insideX, timesBy_zero (w := x.negate) insideX, negate_zero]
  rw [timesBy_of_finite one other, timesBy_of_finite (x := x.negate) one other, negate_make,
    negative_negate (Floating.not_positiveInfinity one), value_negate, Bool.not_bne]

end Members

open Arithmetic

/-- The weights differ at most in the sign of a logarithm that is zero, or in what is no number. -/
abbrev Alike (v w : SignedLog width) : Prop := BuiltIn.Alike (.signedLog width) v w

theorem Alike.refl (w : SignedLog width) : Alike w w := ⟨rfl, .refl w.value⟩

theorem Alike.of_eq {v w : SignedLog width} (same : v = w) : Alike v w := same ▸ .refl v

theorem Alike.equal {v w : SignedLog width} (alike : Alike v w) (number : v.value.isNaN = false) :
    Weight.equal v w = true :=
  Bool.and_eq_true_iff.mpr ⟨beq_iff_eq.mpr alike.1, alike.2.equal number⟩

theorem make_alike (negative : Bool) {value value' : Floating width} (alike : value.Alike value') :
    Alike (make negative value) (make negative value') := by
  refine ⟨?_, alike⟩
  change (negative && !value.isPositiveInfinity) = (negative && !value'.isPositiveInfinity)
  rw [alike.isPositiveInfinity_eq]

variable {exp log1p : Floating .double → Floating .double}

theorem plusBy_comm (zeros : ZerosAlike exp log1p) (insideX : x.member = true) (insideY : y.member = true) :
    Alike (plusBy (elementary exp log1p) x y) (plusBy (elementary exp log1p) y x) := by
  rcases eq_zero_or_finite insideX with rfl | one
  · exact .of_eq ((zero_plusBy insideY).trans (plusBy_zero insideY).symm)
  rcases eq_zero_or_finite insideY with rfl | other
  · exact .of_eq ((plusBy_zero insideX).trans (zero_plusBy insideX).symm)
  rw [plusBy_of_finite one other, plusBy_of_finite other one]
  by_cases signs : x.negative = y.negative
  · rw [if_pos signs, if_pos signs.symm, signs]
    exact make_alike y.negative (logPlus_comm zeros one other)
  · rw [if_neg signs, if_neg (Ne.symm signs)]
    have number := Floating.number_of_finite one
    have number' := Floating.number_of_finite other
    apply Alike.of_eq
    rcases Int.lt_trichotomy x.value.rank y.value.rank with less | same | more
    · have different := Int.ne_of_lt less
      simp [Floating.equal, Floating.lt, number, number', less, different, different.symm, Int.lt_asymm less]
    · simp [Floating.equal, number, number', same]
    · have different := Int.ne_of_lt more
      simp [Floating.equal, Floating.lt, number, number', more, different, different.symm, Int.lt_asymm more]

theorem timesBy_comm (x y : SignedLog width) :
    timesBy (elementary exp log1p) x y = timesBy (elementary exp log1p) y x := by
  have sums : x.value + y.value = y.value + x.value := Floating.add_comm ..
  have signs : (x.negative != y.negative) = (y.negative != x.negative) := bne_comm
  simp only [timesBy, elementary, rounding, sums, signs, Bool.or_comm]

theorem timesBy_one (inside : w.member = true) : Alike (timesBy (elementary exp log1p) w one) w := by
  rcases eq_zero_or_finite inside with rfl | finite
  · exact .of_eq (zero_timesBy (by cases width <;> rfl))
  · have bounded : (one : SignedLog width).value.isFinite = true := decide_eq_true (Floating.infinity_pos width)
    have sum := make_alike w.negative (Floating.add_zero finite)
    rw [make_self] at sum
    rw [timesBy_of_finite finite bounded]
    exact (Bool.bne_false w.negative).symm ▸ sum

/-- Whatever is taken from itself leaves zero. -/
theorem minusBy_self (inside : w.member = true) : minusBy arithmetic w w = zero := by
  rcases eq_zero_or_finite inside with rfl | finite
  · rw [minusBy, negate_zero, zero_plusBy inside]
  · have same : w.value.equal w.value = true :=
      Floating.equal_iff_rank.mpr ⟨Floating.number_of_finite finite, Floating.number_of_finite finite, rfl⟩
    rw [minusBy, plusBy_of_finite (y := w.negate) finite finite, negative_negate (Floating.not_positiveInfinity finite),
      value_negate, if_neg (by cases w.negative <;> decide), if_pos same]

theorem isNaN_of_member (inside : w.member = true) : w.value.isNaN = false := (Number.isLog_iff.mp inside).1

theorem isNaN_plusBy (numeric : Numeric exp log1p) (insideX : x.member = true) (insideY : y.member = true) :
    (plusBy (elementary exp log1p) x y).value.isNaN = false := by
  rcases eq_zero_or_finite insideX with rfl | one
  · rw [zero_plusBy insideY]
    exact isNaN_of_member insideY
  rcases eq_zero_or_finite insideY with rfl | other
  · rw [plusBy_zero insideX]
    exact isNaN_of_member insideX
  have number := Floating.number_of_finite one
  have number' := Floating.number_of_finite other
  rw [plusBy_of_finite one other]
  split
  next => exact isNaN_logPlus numeric one other
  next =>
    split
    next => exact Floating.isNaN_infinity
    next =>
      split
      next less => exact isNaN_logMinus numeric one other (by simp [Floating.lt] at less; omega)
      next more => exact isNaN_logMinus numeric other one (by simpa [Floating.lt, number, number'] using more)

theorem isNaN_timesBy (insideX : x.member = true) (insideY : y.member = true) :
    (timesBy (elementary exp log1p) x y).value.isNaN = false := by
  rcases eq_zero_or_finite insideX with rfl | one
  · rw [zero_timesBy insideY]
    exact isNaN_of_member insideX
  rcases eq_zero_or_finite insideY with rfl | other
  · rw [timesBy_zero insideX]
    exact isNaN_of_member insideY
  rw [timesBy_of_finite one other]
  exact Floating.isNaN_add_of_finite one (Floating.number_of_finite other)

/-- The laws of subtraction at two weights, up to a relation between weights. -/
structure Subtractive (plus minus times : SignedLog width → SignedLog width → SignedLog width)
    (same : SignedLog width → SignedLog width → Prop) (x y : SignedLog width) : Prop where
  plus_comm : same (plus x y) (plus y x)
  times_comm : same (times x y) (times y x)
  minus_self : same (minus x x) zero
  negate_negate : same x.negate.negate x
  negate_plus : same (plus x y).negate (plus x.negate y.negate)
  minus_negate : same (minus x y) (minus y x).negate
  negate_times : same (times x y).negate (times x.negate y)
  plus_zero : same (plus x zero) x
  zero_plus : same (plus zero x) x
  times_zero : same (times x zero) zero
  zero_times : same (times zero x) zero
  times_one : same (times x one) x
  one_times : same (times one x) x

section Laws

variable (insideX : x.member = true) (insideY : y.member = true)

include insideX insideY

theorem subtractive_alike (zeros : ZerosAlike exp log1p) :
    Subtractive (plusBy (elementary exp log1p)) (minusBy (elementary exp log1p)) (timesBy (elementary exp log1p))
      Alike x y where
  plus_comm := plusBy_comm zeros insideX insideY
  times_comm := .of_eq (timesBy_comm x y)
  minus_self := .of_eq (minusBy_self insideX)
  negate_negate := .of_eq x.negate_negate
  negate_plus := .of_eq (negate_plusBy insideX insideY)
  minus_negate := by
    have insideX' : x.negate.member = true := insideX
    have insideY' : y.negate.member = true := insideY
    have turned : (minusBy (elementary exp log1p) y x).negate = plusBy (elementary exp log1p) y.negate x := by
      rw [minusBy, negate_plusBy insideY insideX', x.negate_negate]
    exact turned ▸ plusBy_comm zeros insideX insideY'
  negate_times := .of_eq (negate_timesBy insideX insideY)
  plus_zero := .of_eq (plusBy_zero insideX)
  zero_plus := .of_eq (zero_plusBy insideX)
  times_zero := .of_eq (timesBy_zero insideX)
  zero_times := .of_eq (zero_timesBy insideX)
  times_one := timesBy_one insideX
  one_times := timesBy_comm one x ▸ timesBy_one insideX

theorem subtractive_equal (zeros : ZerosAlike exp log1p) (numeric : Numeric exp log1p) :
    Subtractive (plusBy (elementary exp log1p)) (minusBy (elementary exp log1p)) (timesBy (elementary exp log1p))
      (fun v w => Weight.equal v w = true) x y := by
  have laws := subtractive_alike insideX insideY zeros
  have number := isNaN_of_member insideX
  have sum := isNaN_plusBy numeric insideX insideY
  have product : (timesBy (elementary exp log1p) x y).value.isNaN = false := isNaN_timesBy insideX insideY
  have zeroInside : (zero : SignedLog width).member = true := by cases width <;> rfl
  have oneInside : (one : SignedLog width).member = true := by cases width <;> rfl
  constructor
  case plus_comm => exact laws.plus_comm.equal sum
  case times_comm => exact laws.times_comm.equal product
  case minus_self => exact laws.minus_self.equal (isNaN_plusBy numeric insideX (y := x.negate) insideX)
  case negate_negate => exact laws.negate_negate.equal number
  case negate_plus => exact laws.negate_plus.equal sum
  case minus_negate => exact laws.minus_negate.equal (isNaN_plusBy numeric insideX (y := y.negate) insideY)
  case negate_times => exact laws.negate_times.equal product
  case plus_zero => exact laws.plus_zero.equal (isNaN_plusBy numeric insideX zeroInside)
  case zero_plus => exact laws.zero_plus.equal (isNaN_plusBy numeric zeroInside insideX)
  case times_zero => exact laws.times_zero.equal (isNaN_timesBy insideX zeroInside)
  case zero_times => exact laws.zero_times.equal (isNaN_timesBy zeroInside insideX)
  case times_one => exact laws.times_one.equal (isNaN_timesBy insideX oneInside)
  case one_times => exact laws.one_times.equal (isNaN_timesBy oneInside insideX)

end Laws

/-- Sums, differences and products of signed log weights obey the laws of signed numbers, up to the sign of a zero and
to what is no number whatever functions stand for the exponential and the logarithm, and under the type's own equality
if these functions give numbers, as those of the library do. What is computed with signs and numbers that are merely put
side by side is never a zero with a minus sign, and it is what the library computes. -/
theorem weights_subtract (width : Width) :
    (∀ {exp log1p : Floating .double → Floating .double}, ZerosAlike exp log1p →
      ∀ {x y : SignedLog width}, member x = true → member y = true →
      Subtractive (plusBy (elementary exp log1p)) (minusBy (elementary exp log1p)) (timesBy (elementary exp log1p))
        Alike x y ∧
      (Numeric exp log1p → Subtractive (plusBy (elementary exp log1p)) (minusBy (elementary exp log1p))
        (timesBy (elementary exp log1p)) (fun v w => equal v w = true) x y)) ∧
    (∀ {x y : SignedLog width}, member x = true → member y = true →
      Subtractive plus minus times (fun v w => equal v w = true) x y) ∧
    (∀ {arithmetic : Arithmetic width} {w : SignedPair width}, w.Computed arithmetic →
      ¬ (w.negative = true ∧ w.value.isPositiveInfinity = true)) ∧
    (∀ x y : SignedLog width, (plus x y).pair = x.pair.plus (.rounding width) y.pair ∧
      (minus x y).pair = x.pair.minus (.rounding width) y.pair ∧
      (times x y).pair = x.pair.times (.rounding width) y.pair ∧
      (divide x y).pair = x.pair.divide (.rounding width) y.pair ∧ x.negate.pair = x.pair.negate) ∧
    (∀ (negative : Bool) (value : Floating width), (make negative value).pair = .new negative value) ∧
    (∀ w : Log width, pair (Convertible.convert w) = .ofLog w) ∧
    (∀ (format : TextFormat) (text : List Char),
      pair <$> (parse format text : Except _ (SignedLog width)) = SignedPair.parse format text) ∧
    pair <$> (decode : Decoder (SignedLog width)) = SignedPair.decode := by
  refine ⟨fun {exp log1p} zeros {x y} insideX insideY => ?_, fun {x y} insideX insideY => ?_,
    fun {arithmetic w} computed minusZero => ?_, fun x y => ?_, pair_make, pair_signed, pair_parse, pair_decode⟩
  · exact ⟨subtractive_alike insideX insideY zeros, subtractive_equal insideX insideY zeros⟩
  · have laws := subtractive_equal insideX insideY zerosAlike_rounding numeric_rounding
    rwa [show elementary Floating.exp Floating.log1p = .rounding width from rfl, plusBy_rounding, minusBy_rounding,
      timesBy_rounding] at laws
  · exact Bool.false_ne_true ((computed.zero_positive minusZero.2).symm.trans minusZero.1)
  · rw [← plusBy_rounding, ← minusBy_rounding, ← timesBy_rounding, ← divideBy_rounding]
    exact ⟨pair_plusBy, pair_minusBy, pair_timesBy, pair_divideBy, pair_negate x⟩

/-- What is owed and what is owned may be the same amount with two different zeros for its logarithm. -/
theorem debts_cancel :
    let owned : SignedLog .single := make false .zero
    let owed : SignedLog .single := make true Floating.zero.neg
    let pairs := SignedPair.minus (.rounding .single) owed.pair owed.pair
    member owned = true ∧ member owed = true ∧ plus owned owed = zero ∧
    equal (plus owned owed) (plus owed owned) = true ∧
    Alike (plusBy (elementary Floating.exp Floating.log1p) owned owed.negate)
      (plusBy (elementary Floating.exp Floating.log1p) owed.negate owned) ∧
    equal (plusBy (elementary Floating.exp Floating.log1p) owned owed.negate)
      (plusBy (elementary Floating.exp Floating.log1p) owed.negate owned) = true ∧
    equal (minus owned owed) (minus owed owned).negate = true ∧
    ¬ (pairs.negative = true ∧ pairs.value.isPositiveInfinity = true) := by
  intro owned owed pairs
  have insideOwned : member owned = true := by decide
  have insideOwed : member owed = true := by decide
  have insideTurned : member owed.negate = true := by decide
  obtain ⟨given, laws, positive, -⟩ := weights_subtract .single
  have settled := given zerosAlike_rounding insideOwned insideTurned
  refine ⟨insideOwned, insideOwed, by decide +kernel, (laws insideOwned insideOwed).plus_comm, settled.1.plus_comm,
    (settled.2 numeric_rounding).plus_comm, (laws insideOwned insideOwed).minus_negate, ?_⟩
  exact positive (.minus (.new true Floating.zero.neg) (.new true Floating.zero.neg))

end SignedLog

end Transducer
