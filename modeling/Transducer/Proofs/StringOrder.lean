import Mathlib.Order.Bounds.Basic
import Transducer.Proofs.StringLaws

/-! Label strings as semirings. The members of a side are ordered by what they begin with, or end with, and infinity
stands above all words. A sum is the greatest lower bound in this order and owes its laws to that. Concatenation goes
through sums on the side on which they are compared. -/

namespace Transducer.LabelString

variable {side : Side} {part word first second third : List Label}

/-- The one word begins the other or ends it, by side. -/
def Part : Side → List Label → List Label → Prop
  | .left, part, word => part <+: word
  | .right, part, word => part <:+ word

namespace Part

theorem refl (side : Side) (word : List Label) : Part side word word := by
  cases side with
  | left => exact List.prefix_rfl
  | right => exact List.suffix_rfl

theorem trans (one : Part side first second) (other : Part side second third) : Part side first third := by
  cases side with
  | left => exact List.IsPrefix.trans one other
  | right => exact List.IsSuffix.trans one other

theorem length_le (within : Part side part word) : part.length ≤ word.length := by
  cases side with
  | left => exact List.IsPrefix.length_le within
  | right => exact List.IsSuffix.length_le within

theorem antisymm (one : Part side first second) (other : Part side second first) : first = second := by
  have same : first.length = second.length := Nat.le_antisymm one.length_le other.length_le
  cases side with
  | left => exact List.IsPrefix.eq_of_length one same
  | right => exact List.IsSuffix.eq_of_length one same

end Part

theorem part_common_iff : Part side part (common side first second) ↔ Part side part first ∧ Part side part second := by
  cases side with
  | left => exact prefix_commonFront_iff
  | right =>
    change part <:+ commonBack first second ↔ part <:+ first ∧ part <:+ second
    rw [← List.reverse_prefix, commonBack, List.reverse_reverse, prefix_commonFront_iff, List.reverse_prefix,
      List.reverse_prefix]

/-- The strings of a side that are weights. -/
def Members (side : Side) : Type := { w : LabelString side // Weight.member w = true }

namespace Members

variable {x y z : Members side}

def ofWord (word : List Label) : Members side := ⟨labels word, rfl⟩

instance : Zero (Members side) := ⟨Weight.zero, rfl⟩

instance : One (Members side) := ⟨Weight.one, rfl⟩

instance : Add (Members side) :=
  ⟨fun x y => ⟨Weight.plus x.1 y.1, by rw [closure.plus, x.2, y.2]; rfl⟩⟩

instance : Mul (Members side) :=
  ⟨fun x y => ⟨Weight.times x.1 y.1, by rw [closure.times, x.2, y.2]; rfl⟩⟩

/-- A member is a word or infinity. -/
@[elab_as_elim, cases_eliminator]
theorem cases {motive : Members side → Prop} (word : ∀ word, motive (ofWord word)) (zero : motive 0)
    (x : Members side) : motive x := by
  obtain ⟨x, inside⟩ := x
  cases x with
  | labels letters => exact word letters
  | infinity => exact zero
  | bad => cases inside

/-- Words are ordered as parts of each other, and infinity is above everything. -/
def Below : LabelString side → LabelString side → Prop
  | _, infinity => True
  | labels part, labels word => Part side part word
  | _, _ => False

instance : LE (Members side) := ⟨fun x y => Below x.1 y.1⟩

theorem ofWord_le_ofWord : (ofWord first : Members side) ≤ ofWord second ↔ Part side first second := Iff.rfl

theorem le_zero (x : Members side) : x ≤ 0 := by
  cases x <;> trivial

theorem not_zero_le_ofWord : ¬ (0 : Members side) ≤ ofWord word := id

theorem ofWord_add_ofWord : (ofWord first : Members side) + ofWord second = ofWord (common side first second) := rfl

theorem zero_add (x : Members side) : 0 + x = x := by
  cases x <;> rfl

theorem add_zero (x : Members side) : x + 0 = x := by
  cases x <;> rfl

instance : PartialOrder (Members side) where
  le_refl x := by
    cases x with
    | word word => exact Part.refl side word
    | zero => exact le_zero 0
  le_trans x y z one other := by
    cases z with
    | zero => exact le_zero x
    | word third =>
      cases y with
      | zero => exact (not_zero_le_ofWord other).elim
      | word second =>
        cases x with
        | zero => exact (not_zero_le_ofWord one).elim
        | word first => exact Part.trans one other
  le_antisymm x y one other := by
    cases x with
    | zero =>
      cases y with
      | zero => rfl
      | word second => exact (not_zero_le_ofWord one).elim
    | word first =>
      cases y with
      | zero => exact (not_zero_le_ofWord other).elim
      | word second => exact congrArg ofWord (Part.antisymm one other)

/-- What is below a sum is below both of its terms. -/
theorem le_add_iff : x ≤ y + z ↔ x ≤ y ∧ x ≤ z := by
  cases y with
  | zero => rw [zero_add, and_iff_right (le_zero x)]
  | word first =>
    cases z with
    | zero => rw [add_zero, and_iff_left (le_zero x)]
    | word second =>
      cases x with
      | zero => exact iff_of_false not_zero_le_ofWord fun both => not_zero_le_ofWord both.1
      | word part =>
        rw [ofWord_add_ofWord, ofWord_le_ofWord, ofWord_le_ofWord, ofWord_le_ofWord]
        exact part_common_iff

instance : SemilatticeInf (Members side) where
  inf := (· + ·)
  inf_le_left _ _ := (le_add_iff.mp le_rfl).1
  inf_le_right _ _ := (le_add_iff.mp le_rfl).2
  le_inf _ _ _ first second := le_add_iff.mpr ⟨first, second⟩

end Members

open Members in
/-- Members of either side are a semiring whose sums are greatest lower bounds of parts, except that products go
through sums only from the side on which strings are compared. -/
theorem members_semiring :
    (∀ part word : List Label, (ofWord part : Members .left) ≤ ofWord word ↔ part <+: word) ∧
    (∀ part word : List Label, (ofWord part : Members .right) ≤ ofWord word ↔ part <:+ word) ∧
    (∀ {side : Side}, IsTop (0 : Members side) ∧ ∀ x y z : Members side,
      IsGLB {x, y} (x + y) ∧ x + (y + z) = x + y + z ∧ x + y = y + x ∧ x + x = x ∧ x + 0 = x ∧ 0 + x = x ∧
      x * (y * z) = x * y * z ∧ x * 1 = x ∧ 1 * x = x ∧ x * 0 = 0 ∧ 0 * x = 0) ∧
    (∀ x y z : Members .left, x * (y + z) = x * y + x * z) ∧
    ∀ x y z : Members .right, (x + y) * z = x * z + y * z := by
  have laws {side : Side} (x y z : Members side) : Weight.Arithmetic x.1 y.1 z.1 :=
    arithmetic (member_iff.mp x.2) (member_iff.mp y.2) (member_iff.mp z.2)
  refine ⟨fun _ _ => ofWord_le_ofWord, fun _ _ => ofWord_le_ofWord, fun {side} => ⟨le_zero, fun x y z => ?_⟩,
    fun x y z => ?_, fun x y z => ?_⟩
  · have sums : x + (y + z) = x + y + z ∧ x + y = y + x ∧ x + x = x :=
      ⟨(inf_assoc x y z).symm, inf_comm x y, inf_idem x⟩
    have products := laws x y z
    exact ⟨isGLB_pair, sums.1, sums.2.1, sums.2.2, add_zero x, zero_add x, Subtype.ext products.times_assoc,
      Subtype.ext products.times_one, Subtype.ext products.one_times, Subtype.ext products.times_zero,
      Subtype.ext products.zero_times⟩
  · exact Subtype.ext (eq_of_beq ((laws x y z).times_plus rfl))
  · exact Subtype.ext (eq_of_beq ((laws x y z).plus_times rfl))

end Transducer.LabelString
