import Transducer.Proofs.LogSums
import Transducer.Proofs.Quotients

/-! Which sums and products of members are members. Sums always are. A product adds numbers up where they stand for
logarithms, and it is a member unless some of these sums is rounded to negative infinity, which is no logarithm. -/

namespace Transducer

open Weight

section Floats

variable {width : Width}

/-- The exact sum of two finite numbers is rounded to negative infinity. -/
def Floating.Sinks (x y : Floating width) : Prop :=
  x.isFinite = true ∧ y.isFinite = true ∧ 2 * (x.units + y.units) ≤ -(width.overflow : Int)

instance (x y : Floating width) : Decidable (x.Sinks y) := inferInstanceAs (Decidable (_ ∧ _))

/-- How the numbers in weights are multiplied, whatever else the weights hold. -/
theorem Number.isLog_product {W : Type} (value : W → Floating width) {x y : Floating width} {absent zero sum : W}
    (insideX : isLog x = true) (insideY : isLog y = true) (infinite : value zero = .infinity)
    (added : value sum = x + y) :
    isLog (value (if !isLog x || !isLog y then absent
      else if x.isPositiveInfinity || y.isPositiveInfinity then zero else sum)) = true ↔ ¬ x.Sinks y := by
  rw [insideX, insideY, if_neg (by decide)]
  split
  next unbounded =>
    have inside : isLog (.infinity : Floating width) = true := by cases width <;> decide
    rw [infinite]
    apply iff_of_true inside
    intro sinks
    obtain ⟨finiteX, finiteY, -⟩ := sinks
    simp [Floating.not_positiveInfinity finiteX, Floating.not_positiveInfinity finiteY] at unbounded
  next finite =>
    obtain ⟨boundedX, boundedY⟩ := Bool.or_eq_false_iff.mp (Bool.eq_false_iff.mpr finite)
    have finiteX := finite_of_isLog insideX boundedX
    have finiteY := finite_of_isLog insideY boundedY
    rw [added, isLog_add finiteX finiteY, ← Int.not_le]
    exact not_congr ⟨fun deep => ⟨finiteX, finiteY, deep⟩, fun sinks => sinks.2.2⟩

namespace Tropical

variable {x y : Tropical width}

theorem number_of_member (inside : x.member = true) : x.value.isNaN = false := (Number.isLog_iff.mp inside).1

theorem plus_of_members (insideX : x.member = true) (insideY : y.member = true) :
    plus x y = if x.value.rank < y.value.rank then x else y := by
  simp [plus, Floating.lt, insideX, insideY, number_of_member insideX, number_of_member insideY]

theorem member_plus (insideX : member x = true) (insideY : member y = true) : member (plus x y) = true := by
  rw [plus_of_members insideX insideY]
  split
  next => exact insideX
  next => exact insideY

theorem member_times (insideX : member x = true) (insideY : member y = true) :
    member (times x y) = true ↔ ¬ x.value.Sinks y.value := Number.isLog_product value insideX insideY rfl rfl

end Tropical

namespace Log

variable {x y : Log width}

theorem member_plus (insideX : member x = true) (insideY : member y = true) : member (plus x y) = true := by
  have sum : plus x y = ⟨Number.logPlus x.value y.value⟩ := by simp [plus, insideX, insideY]
  rw [sum]
  exact Number.isLog_logPlus insideX insideY

theorem member_times (insideX : member x = true) (insideY : member y = true) :
    member (times x y) = true ↔ ¬ x.value.Sinks y.value := Number.isLog_product value insideX insideY rfl rfl

end Log

namespace SignedLog

variable {x y : SignedLog width}

theorem member_plus (insideX : member x = true) (insideY : member y = true) : member (plus x y) = true := by
  unfold plus
  rw [insideX, insideY, if_neg (by decide)]
  split
  next => exact insideY
  next boundedX =>
    split
    next => exact insideX
    next boundedY =>
      have finiteX := Number.finite_of_isLog insideX (Bool.eq_false_iff.mpr boundedX)
      have finiteY := Number.finite_of_isLog insideY (Bool.eq_false_iff.mpr boundedY)
      have compared : x.value.lt y.value = decide (x.value.rank < y.value.rank) := by
        simp [Floating.lt, Floating.number_of_finite finiteX, Floating.number_of_finite finiteY]
      split
      next => exact Number.isLog_logPlus insideX insideY
      next =>
        split
        next => cases width <;> decide
        next =>
          rw [compared]
          split
          next less => exact Number.isLog_logMinus finiteX finiteY (Int.le_of_lt (of_decide_eq_true less))
          next more => exact Number.isLog_logMinus finiteY finiteX (Int.not_lt.mp (mt decide_eq_true more))

theorem member_times (insideX : member x = true) (insideY : member y = true) :
    member (times x y) = true ↔ ¬ x.value.Sinks y.value := Number.isLog_product value insideX insideY rfl rfl

end SignedLog

end Floats

namespace BuiltIn

/-- A product that is no member although its factors are. -/
def Sinks : (type : BuiltIn) → type.Carrier → type.Carrier → Prop
  | tropical _, x, y => x.value.Sinks y.value
  | log _, x, y => x.value.Sinks y.value
  | signedLog _, x, y => x.value.Sinks y.value
  | minMax _, _, _ => False
  | boolean, _, _ => False
  | labelString _, _, _ => False

theorem member_plus {type : BuiltIn} {x y : type.Carrier} (insideX : member x = true) (insideY : member y = true) :
    member (plus x y) = true := by
  have both : (member x && member y) = true := Bool.and_eq_true_iff.mpr ⟨insideX, insideY⟩
  cases type with
  | tropical width => exact Tropical.member_plus insideX insideY
  | log width => exact Log.member_plus insideX insideY
  | signedLog width => exact SignedLog.member_plus insideX insideY
  | minMax width => exact ((MinMax.lawful width).closure.plus x y).trans both
  | boolean => exact (Boolean.lawful.closure.plus x y).trans both
  | labelString side => exact ((LabelString.lawful side).closure.plus x y).trans both

theorem member_times {type : BuiltIn} {x y : type.Carrier} (insideX : member x = true) (insideY : member y = true) :
    member (times x y) = true ↔ ¬ type.Sinks x y := by
  have both : (member x && member y) = true := Bool.and_eq_true_iff.mpr ⟨insideX, insideY⟩
  cases type with
  | tropical width => exact Tropical.member_times insideX insideY
  | log width => exact Log.member_times insideX insideY
  | signedLog width => exact SignedLog.member_times insideX insideY
  | minMax width => exact iff_of_true (((MinMax.lawful width).closure.times x y).trans both) id
  | boolean => exact iff_of_true ((Boolean.lawful.closure.times x y).trans both) id
  | labelString side => exact iff_of_true (((LabelString.lawful side).closure.times x y).trans both) id

end BuiltIn

namespace WeightType

variable {type : WeightType} {leafType : BuiltIn}

theorem Leaf.get_plus (leaf : type.Leaf leafType) (x y : type.Carrier) :
    leaf.get (plus x y) = plus (leaf.get x) (leaf.get y) :=
  leaf.get_componentwise (fun _ => plus) (fun _ _ _ _ => rfl) x y

theorem Leaf.get_times (leaf : type.Leaf leafType) (x y : type.Carrier) :
    leaf.get (times x y) = times (leaf.get x) (leaf.get y) :=
  leaf.get_componentwise (fun _ => times) (fun _ _ _ _ => rfl) x y

end WeightType

/-- A sum of members is a member. A product of members is one exactly if no two numbers in the same place of its factors
are logarithms with an exact sum that is rounded to negative infinity. -/
theorem members_close {type : WeightType} {x y : type.Carrier} (insideX : member x = true) (insideY : member y = true) :
    member (plus x y) = true ∧ (member (times x y) = true ↔
      ∀ {leafType : BuiltIn} (leaf : type.Leaf leafType), ¬ leafType.Sinks (leaf.get x) (leaf.get y)) := by
  have leaves {w : type.Carrier} (inside : member w = true) {leafType : BuiltIn} (leaf : type.Leaf leafType) :
      member (leaf.get w) = true := WeightType.member_iff.mp inside leaf
  constructor
  · apply WeightType.member_iff.mpr
    intro leafType leaf
    rw [leaf.get_plus]
    exact BuiltIn.member_plus (leaves insideX leaf) (leaves insideY leaf)
  · rw [WeightType.member_iff]
    apply forall₂_congr
    intro leafType leaf
    rw [leaf.get_times]
    exact BuiltIn.member_times (leaves insideX leaf) (leaves insideY leaf)

/-- The lowest number of a tropical weight is a weight, but twice that number is not. -/
theorem lowest_not_closed :
    let lowest : Tropical .single := ⟨.lowest .single⟩
    member lowest = true ∧ times lowest lowest = ⟨Floating.infinity.neg⟩ ∧ member (times lowest lowest) = false := by
  decide +kernel

/-- A cost beside a balance. -/
abbrev accountType : WeightType := .product (.builtIn (.tropical .single)) (.builtIn (.signedLog .double))

def deepest : accountType.Carrier := ⟨⟨.lowest .single⟩, .make true (.lowest .double)⟩

theorem deepest_sinks : member (plus deepest deepest) = true ∧ member (times deepest one) = true ∧
    member (times deepest deepest) = false := by
  have inside : member deepest = true := by decide +kernel
  refine ⟨(members_close inside inside).1, ?_, Bool.eq_false_iff.mpr fun squared => ?_⟩
  · apply (members_close inside (by decide +kernel)).2.mpr
    intro leafType leaf
    have apart : ¬ deepest.first.value.Sinks .zero ∧ ¬ deepest.second.value.Sinks .zero := by decide +kernel
    rcases leaf with _ | leaf | leaf <;> cases leaf
    · exact apart.1
    · exact apart.2
  · have sinks : deepest.first.value.Sinks deepest.first.value := by decide +kernel
    exact (members_close inside inside).2.mp squared (.first .here) sinks

end Transducer
