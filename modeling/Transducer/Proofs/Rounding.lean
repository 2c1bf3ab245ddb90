import Mathlib.Order.Monotone.Basic
import Transducer.Floating.Rounding

/-! Rounding to the nearest number. A value is rounded above a number when it lies beyond the midpoint to the next
one, or on it if the next one is even, whatever binades the two are in. So rounding keeps order and numbers. Sums of
finite numbers and changes of width round once, and they keep order with it. -/

namespace Transducer

/-- Twice a value lies beyond a midpoint. On it the even neighbour above counts. -/
def Reaches (above midpoint twice : Nat) : Prop := midpoint < twice ∨ (midpoint = twice ∧ above % 2 = 0)

theorem lt_roundHalfEven_iff {numerator denominator : Nat} (pos : 0 < denominator) (k : Nat) :
    k < roundHalfEven numerator denominator ↔
      Reaches (k + 1) (k * denominator + (k + 1) * denominator) (2 * numerator) := by
  have parts := Nat.div_add_mod numerator denominator
  have small := Nat.mod_lt numerator pos
  simp only [roundHalfEven, Reaches, Nat.succ_mul]
  generalize numerator / denominator = quotient at *
  generalize numerator % denominator = remainder at *
  rcases Nat.lt_trichotomy k quotient with less | rfl | more
  · have room := Nat.mul_le_mul_right denominator (Nat.succ_le_of_lt less)
    rw [Nat.succ_mul, Nat.mul_comm quotient] at room
    split <;> [skip; split] <;> omega
  · rw [Nat.mul_comm k]
    split <;> [skip; split] <;> omega
  · have room := Nat.mul_le_mul_right denominator (Nat.succ_le_of_lt more)
    rw [Nat.succ_mul, Nat.mul_comm quotient] at room
    split <;> [skip; split] <;> omega

theorem le_roundHalfEven {numerator denominator k : Nat} (pos : 0 < denominator) (least : k * denominator ≤ numerator) :
    k ≤ roundHalfEven numerator denominator := by
  cases k with
  | zero => exact Nat.zero_le _
  | succ k =>
    apply (lt_roundHalfEven_iff pos k).mpr
    rw [Nat.succ_mul] at least ⊢
    exact .inl (by omega)

theorem roundHalfEven_le {numerator denominator k : Nat} (pos : 0 < denominator) (most : numerator ≤ k * denominator) :
    roundHalfEven numerator denominator ≤ k := by
  apply Nat.not_lt.mp
  rw [lt_roundHalfEven_iff pos, Reaches, Nat.succ_mul]
  omega

namespace Width

variable {width : Width} {numerator denominator : Nat}

theorem leading_pos (width : Width) : 0 < width.leading := Nat.two_pow_pos _

theorem leading_even (width : Width) : width.leading % 2 = 0 := by
  cases width <;> decide

/-- The numbers of a binade are the multiples of a power of two with so many bits. -/
theorem units_binade {shift k : Nat} (normal : width.leading ≤ k ∨ shift = 0) (within : k ≤ 2 * width.leading) :
    width.units (shift * width.leading + k) = k * 2 ^ shift := by
  have pos := width.leading_pos
  unfold units
  by_cases subnormal : k < width.leading
  · obtain rfl : shift = 0 := normal.resolve_left (Nat.not_le.mpr subnormal)
    simp [subnormal]
  obtain ⟨j, rfl⟩ := Nat.exists_eq_add_of_le (Nat.not_lt.mp subnormal)
  have outside : ¬ shift * width.leading + (width.leading + j) < width.leading := by omega
  have next : shift * width.leading + (width.leading + j) = j + width.leading * (shift + 1) := by
    rw [Nat.mul_succ, Nat.mul_comm]
    omega
  rw [if_neg outside, next, Nat.add_mul_mod_self_left, Nat.add_mul_div_left j _ pos]
  rcases Nat.lt_or_eq_of_le (by omega : j ≤ width.leading) with less | rfl
  · rw [Nat.mod_eq_of_lt less, Nat.div_eq_of_lt less]
    simp
  · rw [Nat.mod_self, Nat.div_self pos, Nat.add_comm 1, Nat.add_sub_cancel, Nat.pow_succ, Nat.add_zero]
    calc width.leading * (2 ^ shift * 2)
      _ = width.leading * 2 * 2 ^ shift := by rw [Nat.mul_comm (2 ^ shift), Nat.mul_assoc]
      _ = (width.leading + width.leading) * 2 ^ shift := by rw [Nat.mul_two]

theorem exists_binade (width : Width) (magnitude : Nat) : ∃ shift k,
    magnitude = shift * width.leading + k ∧ (width.leading ≤ k ∨ shift = 0) ∧ k < 2 * width.leading := by
  have pos := width.leading_pos
  by_cases subnormal : magnitude < width.leading
  · exact ⟨0, magnitude, by omega, .inr rfl, by omega⟩
  · obtain ⟨rest, rfl⟩ := Nat.exists_eq_add_of_le (Nat.not_lt.mp subnormal)
    have parts := Nat.div_add_mod rest width.leading
    have small := Nat.mod_lt rest pos
    rw [Nat.mul_comm] at parts
    exact ⟨rest / width.leading, width.leading + rest % width.leading, by omega, .inl (by omega), by omega⟩

theorem units_strictMono (width : Width) : StrictMono width.units := by
  refine strictMono_nat_of_lt_succ fun magnitude => ?_
  obtain ⟨shift, k, rfl, normal, within⟩ := width.exists_binade magnitude
  rw [units_binade normal (Nat.le_of_lt within), Nat.add_assoc,
    units_binade (normal.imp_left fun low => Nat.le_succ_of_le low) within]
  exact Nat.mul_lt_mul_of_pos_right (Nat.lt_succ_self k) (Nat.two_pow_pos shift)

/-- The binade in which a quotient is rounded. -/
def shift (width : Width) (numerator denominator : Nat) : Nat :=
  (numerator / denominator).log2 + 1 - width.precision

theorem shift_spec (width : Width) (numerator : Nat) (pos : 0 < denominator) :
    numerator < 2 * width.leading * (denominator * 2 ^ width.shift numerator denominator) ∧
    (width.shift numerator denominator = 0 ∨
      width.leading * (denominator * 2 ^ width.shift numerator denominator) ≤ numerator) := by
  have bits : 2 * width.leading = 2 ^ width.precision := by cases width <;> rfl
  have places : width.precision = width.precision - 1 + 1 := by cases width <;> rfl
  have moved (factor shift : Nat) : factor * (denominator * 2 ^ shift) = factor * 2 ^ shift * denominator := by
    rw [Nat.mul_comm denominator, Nat.mul_assoc]
  simp only [moved]
  have below : numerator / denominator < 2 ^ ((numerator / denominator).log2 + 1) := Nat.lt_log2_self
  unfold shift
  constructor
  · rw [bits, ← Nat.pow_add]
    apply Nat.lt_mul_of_div_lt _ pos
    exact Nat.lt_of_lt_of_le below (Nat.pow_le_pow_right (by decide) (by omega))
  · by_cases normal : (numerator / denominator).log2 + 1 ≤ width.precision
    · exact .inl (Nat.sub_eq_zero_of_le normal)
    · right
      have some : numerator / denominator ≠ 0 := by
        intro none
        rw [none, Nat.log2_zero] at normal
        omega
      have same : width.precision - 1 + ((numerator / denominator).log2 + 1 - width.precision) =
          (numerator / denominator).log2 := by omega
      rw [leading, ← Nat.pow_add, same]
      exact (Nat.le_div_iff_mul_le pos).mp (Nat.log2_self_le some)

/-- Rounding goes above a magnitude for values beyond the midpoint to the next one. -/
theorem lt_nearest_iff (width : Width) (pos : 0 < denominator) {magnitude : Nat} (finite : magnitude < width.infinity) :
    magnitude < width.nearest numerator denominator ↔
      Reaches (magnitude + 1) ((width.units magnitude + width.units (magnitude + 1)) * denominator)
        (2 * numerator) := by
  obtain ⟨above, below⟩ := shift_spec width numerator pos
  have half := width.leading_pos
  have next := width.units_strictMono (Nat.lt_add_one magnitude)
  change magnitude < min width.infinity (width.shift numerator denominator * width.leading +
    roundHalfEven numerator (denominator * 2 ^ width.shift numerator denominator)) ↔ _
  generalize width.shift numerator denominator = shift at *
  have unit : 0 < denominator * 2 ^ shift := Nat.mul_pos pos (Nat.two_pow_pos shift)
  have scaled {k : Nat} (normal : width.leading ≤ k ∨ shift = 0) (within : k ≤ 2 * width.leading) :
      width.units (shift * width.leading + k) * denominator = k * (denominator * 2 ^ shift) := by
    rw [units_binade normal within, Nat.mul_assoc, Nat.mul_comm denominator]
  have grows {low high : Nat} (less : low ≤ high) :
      width.units low * denominator ≤ width.units high * denominator :=
    Nat.mul_le_mul_right denominator (width.units_strictMono.monotone less)
  have strictly := Nat.mul_lt_mul_of_pos_right next pos
  rw [Nat.lt_min, and_iff_right finite, Nat.add_mul]
  rcases Nat.lt_or_ge magnitude (shift * width.leading + 2 * width.leading) with within | high
  case inr =>
    -- the value is in a smaller binade than the midpoint
    have least := grows high
    rw [scaled (.inl (by omega)) (Nat.le_refl _)] at least
    have rounded := roundHalfEven_le unit (Nat.le_of_lt above)
    refine iff_of_false (by omega) fun reaches => ?_
    rcases reaches with beyond | ⟨same, -⟩ <;> omega
  by_cases low : shift ≠ 0 ∧ magnitude < shift * width.leading + width.leading
  case pos =>
    -- the value is in a greater binade than the midpoint
    have most := grows (Nat.succ_le_of_lt low.2)
    rw [Nat.succ_eq_add_one, scaled (.inl (Nat.le_refl _)) (by omega)] at most
    have least := below.resolve_left low.1
    have rounded := le_roundHalfEven unit least
    exact iff_of_true (by omega) (.inl (by omega))
  obtain ⟨k, rfl, normal⟩ : ∃ k, magnitude = shift * width.leading + k ∧ (width.leading ≤ k ∨ shift = 0) := by
    rcases not_and_or.mp low with subnormal | normal
    · exact ⟨magnitude, by simp [Decidable.not_not.mp subnormal], .inr (Decidable.not_not.mp subnormal)⟩
    · obtain ⟨k, same⟩ := Nat.exists_eq_add_of_le (Nat.not_lt.mp normal)
      exact ⟨width.leading + k, by omega, .inl (by omega)⟩
  rw [Nat.add_lt_add_iff_left, lt_roundHalfEven_iff unit, Nat.add_assoc, scaled normal (by omega),
    scaled (normal.imp_left Nat.le_succ_of_le) (by omega)]
  have parity : (shift * width.leading + (k + 1)) % 2 = (k + 1) % 2 := by
    rw [Nat.add_mod, Nat.mul_mod, width.leading_even]
    simp
  rw [Reaches, Reaches, parity]

/-- A greater quotient is not rounded to a smaller magnitude. -/
theorem nearest_mono (width : Width) (pos : 0 < denominator) {more under : Nat} (pos' : 0 < under)
    (less : numerator * under ≤ more * denominator) :
    width.nearest numerator denominator ≤ width.nearest more under := by
  apply le_of_forall_lt
  intro magnitude below
  have finite := Nat.lt_of_lt_of_le below (Nat.min_le_left ..)
  rw [lt_nearest_iff width pos finite] at below
  rw [lt_nearest_iff width pos' finite]
  generalize width.units magnitude + width.units (magnitude + 1) = midpoint at *
  have crossed : 2 * numerator * under ≤ 2 * more * denominator := by
    rw [Nat.mul_assoc, Nat.mul_assoc]
    exact Nat.mul_le_mul_left 2 less
  have swapped : midpoint * denominator * under = midpoint * under * denominator := Nat.mul_right_comm ..
  rcases below with beyond | ⟨same, even⟩
  · refine .inl (Nat.lt_of_mul_lt_mul_right (a := denominator) ?_)
    have strictly := Nat.mul_lt_mul_of_pos_right beyond pos'
    omega
  · have reached : midpoint * under ≤ 2 * more := by
      apply Nat.le_of_mul_le_mul_right _ pos
      rw [← swapped, same]
      exact crossed
    exact (Nat.lt_or_eq_of_le reached).imp_right fun equal => ⟨equal, even⟩

/-- A value between the midpoints on both sides of a magnitude is rounded to it. -/
theorem nearest_eq_succ (width : Width) (pos : 0 < denominator) {magnitude : Nat}
    (finite : magnitude + 1 < width.infinity)
    (reaches : Reaches (magnitude + 1) ((width.units magnitude + width.units (magnitude + 1)) * denominator)
      (2 * numerator))
    (stays : ¬ Reaches (magnitude + 2) ((width.units (magnitude + 1) + width.units (magnitude + 2)) * denominator)
      (2 * numerator)) : width.nearest numerator denominator = magnitude + 1 := by
  apply Nat.le_antisymm
  · exact Nat.not_lt.mp (mt (lt_nearest_iff width pos finite).mp stays)
  · exact (lt_nearest_iff width pos (Nat.lt_of_succ_lt finite)).mpr reaches

/-- Numbers are not changed by rounding. -/
theorem nearest_units (width : Width) (pos : 0 < denominator) {magnitude : Nat} (bounded : magnitude ≤ width.infinity) :
    width.nearest (width.units magnitude * denominator) denominator = magnitude := by
  have grows (magnitude : Nat) := Nat.mul_lt_mul_of_pos_right (width.units_strictMono (Nat.lt_add_one magnitude)) pos
  apply Nat.le_antisymm
  · rcases Nat.lt_or_eq_of_le bounded with finite | rfl
    · have next := grows magnitude
      rw [← Nat.not_lt, lt_nearest_iff width pos finite, Reaches, Nat.add_mul]
      omega
    · exact Nat.min_le_left ..
  · cases magnitude with
    | zero => exact Nat.zero_le _
    | succ magnitude =>
      have next := grows magnitude
      apply (lt_nearest_iff width pos bounded).mpr
      rw [Nat.add_mul]
      exact .inl (by omega)

theorem units_zero : width.units 0 = 0 := by cases width <;> rfl

variable {target : Width} {magnitude more : Nat}

/-- The magnitude in another width, rounded once. Infinity stays infinity. -/
def resized (width target : Width) (magnitude : Nat) : Nat :=
  if magnitude = width.infinity then target.infinity
  else target.nearest (width.units magnitude * 2 ^ target.scale) (2 ^ width.scale)

theorem resized_le (width target : Width) (magnitude : Nat) : width.resized target magnitude ≤ target.infinity := by
  unfold resized
  split
  next => exact Nat.le_refl _
  next => exact Nat.min_le_left ..

theorem resized_mono (less : magnitude ≤ more) (bounded : more ≤ width.infinity) :
    width.resized target magnitude ≤ width.resized target more := by
  by_cases greatest : more = width.infinity
  · rw [show width.resized target more = target.infinity from if_pos greatest]
    exact resized_le ..
  · have units := Nat.mul_le_mul_right (2 ^ target.scale) (width.units_strictMono.monotone less)
    rw [resized, resized, if_neg greatest, if_neg (by omega)]
    exact target.nearest_mono (Nat.two_pow_pos _) (Nat.two_pow_pos _) (Nat.mul_le_mul_right _ units)

theorem resized_zero : width.resized target 0 = 0 := by cases width <;> cases target <;> decide +kernel

end Width

namespace Floating

variable {width target : Width} {x y : Floating width}

theorem isNaN_ofUnits (total : Int) : (ofUnits total : Floating width).isNaN = false := isNaN_ofQuotient ..

theorem magnitude_le (number : x.isNaN = false) : x.magnitude ≤ width.infinity :=
  Nat.not_lt.mp (of_decide_eq_false number)

theorem isNaN_infinity : (infinity : Floating width).isNaN = false := decide_eq_false (Nat.lt_irrefl _)

theorem rank_signedZero (negative : Bool) : ({ (zero : Floating width) with negative } : Floating width).rank = 0 := by
  cases negative <;> rfl

theorem isNaN_signedZero (negative : Bool) :
    ({ (zero : Floating width) with negative } : Floating width).isNaN = false :=
  decide_eq_false (Nat.not_lt_zero _)

/-- A function that keeps zero and the order of two magnitudes keeps the order of the numbers. -/
theorem signed_mono {f : Nat → Nat} {first second : Bool} {m n : Nat} (zero : f 0 = 0) (up : m ≤ n → f m ≤ f n)
    (down : n ≤ m → f n ≤ f m) (less : (if first then -(m : Int) else m) ≤ if second then -(n : Int) else n) :
    (if first then -(f m : Int) else f m) ≤ if second then -(f n : Int) else f n := by
  cases first <;> cases second <;> simp only [Bool.false_eq_true, if_false, if_true] at less ⊢
  case false.false => exact Int.ofNat_le.mpr (up (Int.ofNat_le.mp less))
  case false.true =>
    obtain ⟨rfl, rfl⟩ : m = 0 ∧ n = 0 := by omega
    omega
  case true.false => omega
  case true.true => exact Int.neg_le_neg (Int.ofNat_le.mpr (down (by omega)))

theorem units_mono (less : x.rank ≤ y.rank) : x.units ≤ y.units :=
  signed_mono Width.units_zero (fun less => width.units_strictMono.monotone less)
    (fun less => width.units_strictMono.monotone less) less

theorem rank_ofUnits (total : Int) : (ofUnits total : Floating width).rank =
    if total < 0 then -(width.nearest total.natAbs 1 : Int) else width.nearest total.natAbs 1 := by
  simp [rank, ofUnits, ofQuotient]

theorem rank_ofUnits_mono {total more : Int} (less : total ≤ more) :
    (ofUnits total : Floating width).rank ≤ (ofUnits more : Floating width).rank := by
  have grows {first second : Nat} (less : first ≤ second) : width.nearest first 1 ≤ width.nearest second 1 :=
    width.nearest_mono Nat.one_pos Nat.one_pos (Nat.mul_le_mul_right 1 less)
  rw [rank_ofUnits, rank_ofUnits]
  split
  next below =>
    split
    next below' =>
      have rounded := grows (by omega : more.natAbs ≤ total.natAbs)
      omega
    next => omega
  next above =>
    rw [if_neg (by omega)]
    exact Int.ofNat_le.mpr (grows (by omega))

/-- Finite numbers are not changed by rounding, nor are infinities. -/
theorem rank_ofUnits_units (bounded : x.magnitude ≤ width.infinity) :
    (ofUnits x.units : Floating width).rank = x.rank := by
  have same := width.nearest_units Nat.one_pos bounded
  have none (zero : width.units x.magnitude = 0) : x.magnitude = 0 :=
    width.units_strictMono.injective (zero.trans Width.units_zero.symm)
  rw [Nat.mul_one] at same
  rw [rank_ofUnits]
  unfold Floating.units Floating.rank
  cases x.negative with
  | false => simp [same]
  | true =>
    simp only [if_true, Int.natAbs_neg, Int.natAbs_natCast, same]
    split <;> omega

theorem rank_ofUnits_zero : (ofUnits 0 : Floating width).rank = 0 := by cases width <;> decide +kernel

theorem units_neg (x : Floating width) : x.neg.units = -x.units := by
  cases sign : x.negative <;> simp [units, neg, sign]

/-- The sum of finite numbers, whose zero has a sign of its own but the rank of any zero. -/
theorem rank_add (one : x.isFinite = true) (other : y.isFinite = true) :
    (x + y).isNaN = false ∧ (x + y).rank = (ofUnits (x.units + y.units) : Floating width).rank := by
  have small : x.magnitude < width.infinity := of_decide_eq_true one
  have small' : y.magnitude < width.infinity := of_decide_eq_true other
  have sum : x + y = if x.units + y.units = 0
      then { (zero : Floating width) with negative := x.negative && y.negative }
      else ofUnits (x.units + y.units) := by
    change add x y = _
    simp [add, isNaN, isInfinite, Nat.lt_asymm small, Nat.lt_asymm small', Nat.ne_of_lt small, Nat.ne_of_lt small']
  rw [sum]
  split
  next none => exact ⟨isNaN_signedZero _, by rw [none, rank_ofUnits_zero, rank_signedZero]⟩
  next => exact ⟨isNaN_ofUnits _, rfl⟩

theorem resize_spec (target : Width) (number : x.isNaN = false) : (x.resize target).isNaN = false ∧
    (x.resize target).negative = x.negative ∧ (x.resize target).magnitude = width.resized target x.magnitude := by
  unfold resize Width.resized
  rw [number, if_neg Bool.false_ne_true]
  cases infinite : x.isInfinite with
  | true =>
    rw [if_pos rfl, if_pos (of_decide_eq_true infinite)]
    exact ⟨isNaN_infinity, rfl, rfl⟩
  | false =>
    rw [if_neg Bool.false_ne_true, if_neg (of_decide_eq_false infinite)]
    exact ⟨isNaN_ofQuotient .., rfl, rfl⟩

theorem rank_resize_mono (target : Width) (number : x.isNaN = false) (other : y.isNaN = false)
    (less : x.rank ≤ y.rank) : (x.resize target).rank ≤ (y.resize target).rank := by
  obtain ⟨-, sign, magnitude⟩ := resize_spec target number
  obtain ⟨-, sign', magnitude'⟩ := resize_spec target other
  unfold rank
  rw [sign, magnitude, sign', magnitude']
  exact signed_mono Width.resized_zero (fun less => Width.resized_mono less (magnitude_le other))
    (fun less => Width.resized_mono less (magnitude_le number)) less

/-- Rounding a greater value does not give a smaller number. -/
theorem rank_le_ofUnits (bounded : x.magnitude ≤ width.infinity) {total : Int} (less : x.units ≤ total) :
    x.rank ≤ (ofUnits total : Floating width).rank := by
  have rounded : (ofUnits x.units : Floating width).rank ≤ (ofUnits total : Floating width).rank :=
    rank_ofUnits_mono less
  rwa [rank_ofUnits_units bounded] at rounded

/-- A sum with a finite number that is not negative is not below the other number. -/
theorem le_add (number : x.isNaN = false) (finite : y.isFinite = true) (positive : y.negative = false) :
    x.le (x + y) = true := by
  have grows : x.units ≤ x.units + y.units := by
    have least : (0 : Int) ≤ y.units := by simp [Floating.units, positive]
    omega
  have bounded := magnitude_le number
  cases infinite : x.isInfinite with
  | true =>
    have small : y.magnitude < width.infinity := of_decide_eq_true finite
    have sum : x + y = x := by
      change add x y = _
      simp [add, isNaN, isInfinite, Nat.lt_asymm small, Nat.ne_of_lt small, of_decide_eq_true infinite]
    simp [sum, Floating.le, number]
  | false =>
    have finiteX : x.isFinite = true := decide_eq_true (Nat.lt_of_le_of_ne bounded (of_decide_eq_false infinite))
    obtain ⟨other, rank⟩ := rank_add finiteX finite
    simp [Floating.le, number, other, rank, rank_le_ofUnits bounded grows]

end Floating

end Transducer
