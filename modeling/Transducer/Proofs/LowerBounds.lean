import Transducer.Proofs.Closure
import Transducer.Proofs.StringOrder

/-! Weights that are told apart by what is below them. An operation whose result is above just what both operands are
above owes all its laws to this. Sums of idempotent weights are such operations: numbers are above smaller ones, false
is above true, strings are above what they begin or end with, and pairs are above what their components are above. -/

namespace Transducer

open Weight

/-- What is below the members of a type, for an operation that gives greatest lower bounds. -/
structure LowerBounds (W : Type) [Weight W] (operation : W → W → W) where
  Bound : Type
  Below : Bound → W → Prop
  closed : ∀ {x y : W}, member x = true → member y = true → member (operation x y) = true
  below_operation : ∀ {x y : W} {bound : Bound}, member x = true → member y = true →
    (Below bound (operation x y) ↔ Below bound x ∧ Below bound y)
  equal_iff : ∀ {x y : W}, member x = true → member y = true →
    (equal x y = true ↔ ∀ bound, Below bound x ↔ Below bound y)

namespace Weight

/-- The laws of a semilattice at these weights, under the equality of their type. -/
structure Semilattice {W : Type} [Weight W] (operation : W → W → W) (x y z : W) : Prop where
  assoc : equal (operation x (operation y z)) (operation (operation x y) z) = true
  comm : equal (operation x y) (operation y x) = true
  self : equal (operation x x) x = true

end Weight

namespace LowerBounds

variable {V W : Type} [Weight V] [Weight W] {operation : W → W → W} {x y z : W}

theorem semilattice (bounds : LowerBounds W operation) (insideX : member x = true) (insideY : member y = true)
    (insideZ : member z = true) : Semilattice operation x y z where
  assoc := by
    have front := bounds.closed insideX insideY
    have back := bounds.closed insideY insideZ
    apply (bounds.equal_iff (bounds.closed insideX back) (bounds.closed front insideZ)).mpr
    intro bound
    rw [bounds.below_operation insideX back, bounds.below_operation insideY insideZ,
      bounds.below_operation front insideZ, bounds.below_operation insideX insideY, and_assoc]
  comm := by
    apply (bounds.equal_iff (bounds.closed insideX insideY) (bounds.closed insideY insideX)).mpr
    intro bound
    rw [bounds.below_operation insideX insideY, bounds.below_operation insideY insideX, and_comm]
  self := by
    apply (bounds.equal_iff (bounds.closed insideX insideX) insideX).mpr
    intro bound
    rw [bounds.below_operation insideX insideX, and_self]

/-- A pair is above what is below either of its components. -/
def product (first : LowerBounds V plus) (second : LowerBounds W plus) : LowerBounds (Product V W) plus where
  Bound := first.Bound ⊕ second.Bound
  Below
    | .inl bound, w => first.Below bound w.first
    | .inr bound, w => second.Below bound w.second
  closed insideX insideY := by
    obtain ⟨one, one'⟩ := Product.member_iff.mp insideX
    obtain ⟨other, other'⟩ := Product.member_iff.mp insideY
    exact Product.member_iff.mpr ⟨first.closed one other, second.closed one' other'⟩
  below_operation {x y bound} insideX insideY := by
    obtain ⟨one, one'⟩ := Product.member_iff.mp insideX
    obtain ⟨other, other'⟩ := Product.member_iff.mp insideY
    cases bound with
    | inl bound => exact first.below_operation one other
    | inr bound => exact second.below_operation one' other'
  equal_iff insideX insideY := by
    obtain ⟨one, one'⟩ := Product.member_iff.mp insideX
    obtain ⟨other, other'⟩ := Product.member_iff.mp insideY
    rw [Product.equal_iff, first.equal_iff one other, second.equal_iff one' other', Sum.forall]

end LowerBounds

namespace Floating

variable {width : Width} {x y : Floating width}

/-- Numbers are equal if the same places are below them. -/
theorem equal_iff_below (number : x.isNaN = false) (other : y.isNaN = false) :
    x.equal y = true ↔ ∀ place : Int, place ≤ x.rank ↔ place ≤ y.rank := by
  rw [equal_iff_rank, and_iff_right number, and_iff_right other]
  exact ⟨fun same place => by rw [same], fun same => Int.le_antisymm ((same _).mp (Int.le_refl _))
    ((same _).mpr (Int.le_refl _))⟩

/-- Numbers are equal if the same places are above them. -/
theorem equal_iff_above (number : x.isNaN = false) (other : y.isNaN = false) :
    x.equal y = true ↔ ∀ place : Int, x.rank ≤ place ↔ y.rank ≤ place := by
  rw [equal_iff_rank, and_iff_right number, and_iff_right other]
  exact ⟨fun same place => by rw [same], fun same => Int.le_antisymm ((same _).mpr (Int.le_refl _))
    ((same _).mp (Int.le_refl _))⟩

end Floating

namespace Tropical

variable {width : Width} {x y : Tropical width}

theorem rank_plus (insideX : x.member = true) (insideY : y.member = true) :
    (plus x y).value.rank = min x.value.rank y.value.rank := by
  rw [plus_of_members insideX insideY]
  split <;> omega

def lowerBounds (width : Width) : LowerBounds (Tropical width) Weight.plus where
  Bound := Int
  Below place w := place ≤ w.value.rank
  closed := member_plus
  below_operation insideX insideY := by rw [← Int.le_min, ← rank_plus insideX insideY]; rfl
  equal_iff insideX insideY := Floating.equal_iff_below (number_of_member insideX) (number_of_member insideY)

end Tropical

namespace MinMax

variable {width : Width}

def sumBounds (width : Width) : LowerBounds (MinMax width) Weight.plus where
  Bound := Int
  Below place w := place ≤ w.value.rank
  closed := plus_inside
  below_operation insideX insideY := by rw [← Int.le_min, ← rank_plus insideX insideY]; rfl
  equal_iff insideX insideY := Floating.equal_iff_below (member_iff.mp insideX) (member_iff.mp insideY)

/-- Products are sums in the order turned around. -/
def productBounds (width : Width) : LowerBounds (MinMax width) Weight.times where
  Bound := Int
  Below place w := w.value.rank ≤ place
  closed := times_inside
  below_operation insideX insideY := by rw [← Int.max_le, ← rank_times insideX insideY]; rfl
  equal_iff insideX insideY := Floating.equal_iff_above (member_iff.mp insideX) (member_iff.mp insideY)

end MinMax

/-- There is something below false and nothing below true. -/
def Boolean.lowerBounds : LowerBounds Boolean Weight.plus where
  Bound := Unit
  Below _ w := w.value? = some false
  closed {x y} insideX insideY := by rw [lawful.closure.plus, insideX, insideY]; rfl
  below_operation insideX insideY := by
    obtain ⟨x, rfl⟩ := exists_of_member insideX
    obtain ⟨y, rfl⟩ := exists_of_member insideY
    revert x y
    decide
  equal_iff insideX insideY := by
    obtain ⟨x, rfl⟩ := exists_of_member insideX
    obtain ⟨y, rfl⟩ := exists_of_member insideY
    rw [forall_const]
    revert x y
    decide

/-- A string is above what it begins with, or ends with, by side. -/
def LabelString.lowerBounds (side : Side) : LowerBounds (LabelString side) Weight.plus where
  Bound := Members side
  Below bound w := Members.Below bound.1 w
  closed {x y} insideX insideY := by rw [closure.plus, insideX, insideY]; rfl
  below_operation {x y bound} insideX insideY := by
    let first : Members side := ⟨x, insideX⟩
    let second : Members side := ⟨y, insideY⟩
    exact (Members.le_add_iff : bound ≤ first + second ↔ _)
  equal_iff {x y} insideX insideY := by
    let first : Members side := ⟨x, insideX⟩
    let second : Members side := ⟨y, insideY⟩
    constructor
    · intro same bound
      rw [eq_of_beq same]
    · intro same
      have same : first = second := eq_of_forall_le_iff same
      exact beq_of_eq (congrArg Subtype.val same)

end Transducer
