import Transducer.Proofs.LowerBounds

/-! Weights whose sum picks the lower of two numbers. Min-max weights, whose product picks the higher one, are a bounded
distributive lattice, whichever operand is picked where the two differ only in the sign of zero. -/

namespace Transducer

open Weight

namespace Weight

variable {W : Type} [Weight W]

/-- A choice between two weights that does not depend on their order, up to equality, and that the neutral weight
never wins. -/
structure Choice (operation : W → W → W) (neutral x y z : W) : Prop extends Semilattice operation x y z where
  chooses : operation x y = x ∨ operation x y = y
  right_neutral : equal (operation x neutral) x = true
  left_neutral : equal (operation neutral x) x = true

/-- The laws of a bounded distributive lattice at these weights, where the sum is the lower bound. -/
structure DistributiveLattice (x y z : W) : Prop where
  sum : Choice plus zero x y z
  product : Choice times one x y z
  plus_times_self : equal (plus x (times x y)) x = true
  times_plus_self : equal (times x (plus x y)) x = true
  times_plus : equal (times x (plus y z)) (plus (times x y) (times x z)) = true
  plus_times : equal (times (plus x y) z) (plus (times x z) (times y z)) = true
  plus_product : equal (plus x (times y z)) (times (plus x y) (plus x z)) = true
  product_plus : equal (plus (times x y) z) (times (plus x z) (plus y z)) = true
  times_zero : equal (times x zero) zero = true
  zero_times : equal (times zero x) zero = true

end Weight

/-- What is neutral is above all members. -/
theorem LowerBounds.choice {W : Type} [Weight W] {operation : W → W → W} {neutral x y z : W}
    (bounds : LowerBounds W operation) (insideX : member x = true) (insideY : member y = true)
    (insideZ : member z = true) (inside : member neutral = true)
    (above : ∀ bound, bounds.Below bound x → bounds.Below bound neutral)
    (chooses : operation x y = x ∨ operation x y = y) : Choice operation neutral x y z where
  toSemilattice := bounds.semilattice insideX insideY insideZ
  chooses := chooses
  right_neutral := by
    apply (bounds.equal_iff (bounds.closed insideX inside) insideX).mpr
    intro bound
    rw [bounds.below_operation insideX inside, and_iff_left_of_imp (above bound)]
  left_neutral := by
    apply (bounds.equal_iff (bounds.closed inside insideX) insideX).mpr
    intro bound
    rw [bounds.below_operation inside insideX, and_iff_right_of_imp (above bound)]

variable {width : Width}

theorem Tropical.choice {x y z : Tropical width} (insideX : member x = true) (insideY : member y = true)
    (insideZ : member z = true) : Choice plus zero x y z := by
  have inside : member (zero : Tropical width) = true := by cases width <;> decide
  apply (Tropical.lowerBounds width).choice insideX insideY insideZ inside
  · exact fun place below => Int.le_trans below (Floating.rank_bounds (number_of_member insideX)).2
  · change Tropical.plus x y = x ∨ Tropical.plus x y = y
    rw [plus_of_members insideX insideY]
    exact ite_eq_or_eq ..

namespace MinMax

variable {x y z : MinMax width}

theorem sum_choice (insideX : member x = true) (insideY : member y = true) (insideZ : member z = true) :
    Choice plus zero x y z := by
  apply (sumBounds width).choice insideX insideY insideZ (lawful width).closure.zero
  · exact fun place below => Int.le_trans below (Floating.rank_bounds (member_iff.mp insideX)).2
  · exact (arithmetic insideX insideY insideZ).plus_chooses rfl

theorem product_choice (insideX : member x = true) (insideY : member y = true) (insideZ : member z = true) :
    Choice times one x y z := by
  apply (productBounds width).choice insideX insideY insideZ (lawful width).closure.one
  · exact fun place below => Int.le_trans (Floating.rank_bounds (member_iff.mp insideX)).1 below
  · change MinMax.times x y = x ∨ MinMax.times x y = y
    rw [times_of_members insideX insideY]
    exact ite_eq_or_eq ..

/-- The member has this place among the numbers. -/
structure At (w : MinMax width) (place : Int) : Prop where
  inside : w.member = true
  rank : w.value.rank = place

namespace At

variable {i j : Int}

theorem plus (first : At x i) (second : At y j) : At (Weight.plus x y) (min i j) where
  inside := plus_inside first.inside second.inside
  rank := first.rank ▸ second.rank ▸ rank_plus first.inside second.inside

theorem times (first : At x i) (second : At y j) : At (Weight.times x y) (max i j) where
  inside := times_inside first.inside second.inside
  rank := first.rank ▸ second.rank ▸ rank_times first.inside second.inside

theorem equal (first : At x i) (second : At y j) (same : i = j) : Weight.equal x y = true :=
  equal_of_rank_eq first.inside second.inside (first.rank.trans (same.trans second.rank.symm))

end At

theorem lattice (insideX : member x = true) (insideY : member y = true) (insideZ : member z = true) :
    DistributiveLattice x y z := by
  have atX : At x x.value.rank := ⟨insideX, rfl⟩
  have atY : At y y.value.rank := ⟨insideY, rfl⟩
  have atZ : At z z.value.rank := ⟨insideZ, rfl⟩
  have laws := arithmetic insideX insideY insideZ
  have inside := (lawful width).closure.zero
  have zeros : equal (zero : MinMax width) zero = true := equal_of_rank_eq inside inside rfl
  exact {
    sum := sum_choice insideX insideY insideZ
    product := product_choice insideX insideY insideZ
    plus_times_self := (atX.plus (atX.times atY)).equal atX (by omega)
    times_plus_self := (atX.times (atX.plus atY)).equal atX (by omega)
    times_plus := laws.times_plus rfl
    plus_times := laws.plus_times rfl
    plus_product := (atX.plus (atY.times atZ)).equal ((atX.plus atY).times (atX.plus atZ)) (by omega)
    product_plus := ((atX.times atY).plus atZ).equal ((atX.plus atZ).times (atY.plus atZ)) (by omega)
    times_zero := laws.times_zero.symm ▸ zeros
    zero_times := laws.zero_times.symm ▸ zeros }

end MinMax

/-- All numbers, the infinities and both zeros among them, are a bounded distributive lattice as min-max weights. The
sums of tropical weights choose between their members in the same way. -/
theorem numbers_form_lattices {width : Width} :
    (zero : MinMax width) = ⟨.infinity⟩ ∧ (one : MinMax width) = ⟨Floating.infinity.neg⟩ ∧
    (∀ x y z : Floating width, x.isNaN = false → y.isNaN = false → z.isNaN = false →
      DistributiveLattice (MinMax.mk x) ⟨y⟩ ⟨z⟩) ∧
    ∀ x y z : Tropical width, member x = true → member y = true → member z = true → Choice plus zero x y z := by
  refine ⟨rfl, rfl, fun x y z numberX numberY numberZ => ?_, fun x y z => Tropical.choice⟩
  exact MinMax.lattice (MinMax.member_iff.mpr numberX) (MinMax.member_iff.mpr numberY) (MinMax.member_iff.mpr numberZ)

/-- Which of the two zeros is chosen depends on their order, so the laws hold up to equality only. -/
theorem zeros_form_lattices :
    DistributiveLattice (MinMax.mk (.zero : Floating .single)) ⟨Floating.zero.neg⟩ ⟨Floating.infinity.neg⟩ ∧
    Choice plus zero (⟨.zero⟩ : Tropical .double) ⟨Floating.zero.neg⟩ ⟨.infinity⟩ ∧
    plus (MinMax.mk (.zero : Floating .single)) ⟨Floating.zero.neg⟩ = ⟨Floating.zero.neg⟩ ∧
    plus (MinMax.mk (Floating.zero.neg : Floating .single)) ⟨.zero⟩ = ⟨.zero⟩ := by
  refine ⟨?_, ?_, by decide +kernel, by decide +kernel⟩
  · exact numbers_form_lattices.2.2.1 _ _ _ (by decide +kernel) (by decide +kernel) (by decide +kernel)
  · exact numbers_form_lattices.2.2.2 _ _ _ (by decide +kernel) (by decide +kernel) (by decide +kernel)

end Transducer
