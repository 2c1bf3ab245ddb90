import Transducer.Weight.Laws
import Transducer.Weight.Product

/-! Laws that weights keep without any tolerance. They are stated at given weights, so a pair keeps a law where both
of its components do, and it declares a law only if both types declare it. -/

namespace Transducer.Weight

variable {W : Type} [Weight W]

/-- Equality is an equivalence at these weights. -/
structure Comparison (x y z : W) : Prop where
  refl : equal x x = true
  symm : equal x y = equal y x
  trans : equal x y = true → equal y z = true → equal x z = true

theorem Comparison.of_beq [DecidableEq W] {x y z : W} (same : ∀ x y : W, equal x y = (x == y)) : Comparison x y z := by
  constructor
  case refl => rw [same, beq_self_eq_true]
  case symm => rw [same, same, BEq.comm]
  case trans =>
    intro first second
    rw [same, beq_iff_eq] at first second ⊢
    exact first.trans second

/-- The laws of sums and products at these weights, some only where the type declares them. -/
structure Arithmetic (x y z : W) : Prop where
  plus_assoc : plus x (plus y z) = plus (plus x y) z
  plus_comm : equal (plus x y) (plus y x) = true
  plus_zero : plus x zero = x
  zero_plus : plus zero x = x
  times_assoc : times x (times y z) = times (times x y) z
  times_one : times x one = x
  one_times : times one x = x
  times_zero : times x zero = zero
  zero_times : times zero x = zero
  times_comm : (properties W).commutative = true → equal (times x y) (times y x) = true
  times_plus : (properties W).leftSemiring = true →
    equal (times x (plus y z)) (plus (times x y) (times x z)) = true
  plus_times : (properties W).rightSemiring = true →
    equal (times (plus x y) z) (plus (times x z) (times y z)) = true
  plus_self : (properties W).idempotent = true → plus x x = x
  plus_chooses : (properties W).path = true → plus x y = x ∨ plus x y = y

/-- A product divided by a factor gives the product again with that factor, if the quotient is a weight at all. -/
structure Quotients (x y : W) : Prop where
  left : (properties W).leftSemiring = true → member (divide .left (times x y) x) = true →
    equal (times x y) (times x (divide .left (times x y) x)) = true
  right : (properties W).rightSemiring = true → member (divide .right (times x y) y) = true →
    equal (times x y) (times (divide .right (times x y) y) y) = true
  either : (properties W).commutative = true → member (divide .right (times x y) x) = true →
    equal (times x y) (times (divide .right (times x y) x) x) = true

/-- Reversal is undone by the reversal back, and turns products around. -/
structure Reversal [Reversible W] (x y : W) : Prop where
  restore : Reversible.restore (Reversible.reverse x) = x
  plus : equal (Reversible.reverse (plus x y)) (Weight.plus (Reversible.reverse x) (Reversible.reverse y)) = true
  times : equal (Reversible.reverse (times x y)) (Weight.times (Reversible.reverse y) (Reversible.reverse x)) = true

/-- What is computed from members is a member, and nothing else is. -/
structure Closure (W : Type) [Weight W] : Prop where
  zero : member (zero : W) = true
  one : member (one : W) = true
  noWeight : member (noWeight : W) = false
  plus : ∀ x y : W, member (plus x y) = (member x && member y)
  times : ∀ x y : W, member (times x y) = (member x && member y)
  divide : ∀ (side : DivisionSide) (x y : W), member (divide side x y) = true → member x = true ∧ member y = true

/-- The members of the type keep all laws. -/
structure Lawful (W : Type) [Weight W] [Reversible W] : Prop where
  closure : Closure W
  tolerant : ∀ x y : W, equal x y = true → approx x y = true
  comparison : ∀ x y z : W, member x = true → member y = true → member z = true → Comparison x y z
  arithmetic : ∀ x y z : W, member x = true → member y = true → member z = true → Arithmetic x y z
  quotients : ∀ x y : W, Quotients x y
  reversal : ∀ x y : W, member x = true → member y = true → Reversal x y
  sides : (properties W).commutative = true → (properties W).leftSemiring = true ∧ (properties W).rightSemiring = true

end Transducer.Weight

namespace Transducer.Product

open Weight

variable {V W : Type} {x y z : Product V W}

theorem eq_of_components (first : x.first = y.first) (second : x.second = y.second) : x = y := by
  cases x
  cases y
  exact congr (congrArg mk first) second

variable [Weight V] [Weight W]

theorem member_iff : member x = true ↔ member x.first = true ∧ member x.second = true := Bool.and_eq_true_iff

theorem equal_iff : equal x y = true ↔ equal x.first y.first = true ∧ equal x.second y.second = true :=
  Bool.and_eq_true_iff

theorem comparison (first : Comparison x.first y.first z.first) (second : Comparison x.second y.second z.second) :
    Comparison x y z where
  refl := equal_iff.mpr ⟨first.refl, second.refl⟩
  symm := by
    change (equal x.first y.first && equal x.second y.second) = (equal y.first x.first && equal y.second x.second)
    rw [first.symm, second.symm]
  trans same next := by
    obtain ⟨one, other⟩ := equal_iff.mp same
    obtain ⟨one', other'⟩ := equal_iff.mp next
    exact equal_iff.mpr ⟨first.trans one one', second.trans other other'⟩

theorem arithmetic (first : Arithmetic x.first y.first z.first) (second : Arithmetic x.second y.second z.second) :
    Arithmetic x y z := by
  have both {here there : Bool} (declared : (here && there) = true) : here = true ∧ there = true :=
    Bool.and_eq_true_iff.mp declared
  constructor
  case plus_assoc => exact eq_of_components first.plus_assoc second.plus_assoc
  case plus_comm => exact equal_iff.mpr ⟨first.plus_comm, second.plus_comm⟩
  case plus_zero => exact eq_of_components first.plus_zero second.plus_zero
  case zero_plus => exact eq_of_components first.zero_plus second.zero_plus
  case times_assoc => exact eq_of_components first.times_assoc second.times_assoc
  case times_one => exact eq_of_components first.times_one second.times_one
  case one_times => exact eq_of_components first.one_times second.one_times
  case times_zero => exact eq_of_components first.times_zero second.times_zero
  case zero_times => exact eq_of_components first.zero_times second.zero_times
  case times_comm =>
    intro declared
    exact equal_iff.mpr ⟨first.times_comm (both declared).1, second.times_comm (both declared).2⟩
  case times_plus =>
    intro declared
    exact equal_iff.mpr ⟨first.times_plus (both declared).1, second.times_plus (both declared).2⟩
  case plus_times =>
    intro declared
    exact equal_iff.mpr ⟨first.plus_times (both declared).1, second.plus_times (both declared).2⟩
  case plus_self =>
    intro declared
    exact eq_of_components (first.plus_self (both declared).1) (second.plus_self (both declared).2)
  case plus_chooses => exact nofun

theorem quotients (first : Quotients x.first y.first) (second : Quotients x.second y.second) : Quotients x y where
  left declared inside := by
    obtain ⟨one, other⟩ := Bool.and_eq_true_iff.mp declared
    obtain ⟨here, there⟩ := member_iff.mp inside
    exact equal_iff.mpr ⟨first.left one here, second.left other there⟩
  right declared inside := by
    obtain ⟨one, other⟩ := Bool.and_eq_true_iff.mp declared
    obtain ⟨here, there⟩ := member_iff.mp inside
    exact equal_iff.mpr ⟨first.right one here, second.right other there⟩
  either declared inside := by
    obtain ⟨one, other⟩ := Bool.and_eq_true_iff.mp declared
    obtain ⟨here, there⟩ := member_iff.mp inside
    exact equal_iff.mpr ⟨first.either one here, second.either other there⟩

theorem reversal [Reversible V] [Reversible W] (first : Reversal x.first y.first)
    (second : Reversal x.second y.second) : Reversal x y where
  restore := eq_of_components first.restore second.restore
  plus := equal_iff.mpr ⟨first.plus, second.plus⟩
  times := equal_iff.mpr ⟨first.times, second.times⟩

theorem closure (first : Closure V) (second : Closure W) : Closure (Product V W) where
  zero := member_iff.mpr ⟨first.zero, second.zero⟩
  one := member_iff.mpr ⟨first.one, second.one⟩
  noWeight := by
    change (member (noWeight : V) && member (noWeight : W)) = false
    rw [first.noWeight, Bool.false_and]
  plus x y := by
    change (member (Weight.plus x.first y.first) && member (Weight.plus x.second y.second)) =
      ((member x.first && member x.second) && (member y.first && member y.second))
    rw [first.plus, second.plus]
    ac_rfl
  times x y := by
    change (member (Weight.times x.first y.first) && member (Weight.times x.second y.second)) =
      ((member x.first && member x.second) && (member y.first && member y.second))
    rw [first.times, second.times]
    ac_rfl
  divide side x y inside := by
    obtain ⟨one, other⟩ := member_iff.mp inside
    obtain ⟨dividend, divisor⟩ := first.divide side _ _ one
    obtain ⟨dividend', divisor'⟩ := second.divide side _ _ other
    exact ⟨member_iff.mpr ⟨dividend, dividend'⟩, member_iff.mpr ⟨divisor, divisor'⟩⟩

theorem lawful [Reversible V] [Reversible W] (first : Lawful V) (second : Lawful W) : Lawful (Product V W) where
  closure := closure first.closure second.closure
  tolerant x y same := by
    obtain ⟨one, other⟩ := equal_iff.mp same
    exact Bool.and_eq_true_iff.mpr ⟨first.tolerant _ _ one, second.tolerant _ _ other⟩
  comparison x y z insideX insideY insideZ := by
    rw [member_iff] at insideX insideY insideZ
    exact comparison (first.comparison _ _ _ insideX.1 insideY.1 insideZ.1)
      (second.comparison _ _ _ insideX.2 insideY.2 insideZ.2)
  arithmetic x y z insideX insideY insideZ := by
    rw [member_iff] at insideX insideY insideZ
    exact arithmetic (first.arithmetic _ _ _ insideX.1 insideY.1 insideZ.1)
      (second.arithmetic _ _ _ insideX.2 insideY.2 insideZ.2)
  quotients x y := quotients (first.quotients _ _) (second.quotients _ _)
  reversal x y insideX insideY := by
    rw [member_iff] at insideX insideY
    exact reversal (first.reversal _ _ insideX.1 insideY.1) (second.reversal _ _ insideX.2 insideY.2)
  sides declared := by
    obtain ⟨one, other⟩ := Bool.and_eq_true_iff.mp declared
    obtain ⟨left, right⟩ := first.sides one
    obtain ⟨left', right'⟩ := second.sides other
    exact ⟨Bool.and_eq_true_iff.mpr ⟨left, left'⟩, Bool.and_eq_true_iff.mpr ⟨right, right'⟩⟩

end Transducer.Product
