import Transducer.Proofs.Rounding
import Transducer.Proofs.WeightLaws
import Transducer.Proofs.WeightSpelling

/-! Laws of weights that are compared and never computed with. Min-max weights are a bounded chain under IEEE
order, where the two zeros have one place, and truth values are the chain of two. -/

namespace Transducer

namespace Floating

variable {width : Width} {x y : Floating width}

theorem equal_iff_rank : x.equal y = true ↔ x.isNaN = false ∧ y.isNaN = false ∧ x.rank = y.rank := by
  simp [Floating.equal, and_assoc]

theorem eq_or_zero_of_rank_eq (number : x.isNaN = false) (other : y.isNaN = false) (same : x.rank = y.rank) :
    x = y ∨ x.magnitude = 0 ∧ y.magnitude = 0 := by
  by_cases zero : y.magnitude = 0
  · refine .inr ⟨?_, zero⟩
    unfold Floating.rank at same
    split at same <;> split at same <;> omega
  · exact .inl ((equal_iff other zero).mp (equal_iff_rank.mpr ⟨number, other, same⟩))

/-- The infinities are the ends of the order and have their places alone. -/
theorem rank_bounds (number : x.isNaN = false) : -(width.infinity : Int) ≤ x.rank ∧ x.rank ≤ width.infinity := by
  have bounded := magnitude_le number
  unfold Floating.rank
  split <;> omega

theorem isNaN_neg_infinity : (infinity : Floating width).neg.isNaN = false := decide_eq_false (Nat.lt_irrefl _)

theorem infinity_pos (width : Width) : 0 < width.infinity := by cases width <;> decide

theorem eq_infinity (number : x.isNaN = false) (least : (width.infinity : Int) ≤ x.rank) : x = infinity := by
  have same : x.rank = (infinity : Floating width).rank := Int.le_antisymm (rank_bounds number).2 least
  refine (eq_or_zero_of_rank_eq number isNaN_infinity same).resolve_right fun zeros => ?_
  exact Nat.ne_of_gt (infinity_pos width) zeros.2

theorem eq_neg_infinity (number : x.isNaN = false) (most : x.rank ≤ -(width.infinity : Int)) : x = infinity.neg := by
  have same : x.rank = (infinity : Floating width).neg.rank := Int.le_antisymm most (rank_bounds number).1
  refine (eq_or_zero_of_rank_eq number isNaN_neg_infinity same).resolve_right fun zeros => ?_
  exact Nat.ne_of_gt (infinity_pos width) zeros.2

end Floating

namespace Number

open Floating

variable {width : Width} {x y : Floating width}

theorem isNaN_wide (number : x.isNaN = false) : (wide x).isNaN = false := (resize_spec .double number).1

theorem rank_wide_congr (number : x.isNaN = false) (other : y.isNaN = false) (same : x.rank = y.rank) :
    (wide x).rank = (wide y).rank :=
  Int.le_antisymm (rank_resize_mono .double number other (Int.le_of_eq same))
    (rank_resize_mono .double other number (Int.le_of_eq same.symm))

theorem delta_finite : (wide Weight.delta).isFinite = true ∧ (wide Weight.delta).negative = false := by decide +kernel

/-- The tolerance is never below zero. -/
theorem approxEqual_of_equal (same : x.equal y = true) : approxEqual Weight.delta x y = true := by
  obtain ⟨number, other, ranks⟩ := equal_iff_rank.mp same
  have within {x y : Floating width} (number : x.isNaN = false) (other : y.isNaN = false) (ranks : x.rank = y.rank) :
      (wide x).le (wide y + wide Weight.delta) = true := by
    have above := le_add (isNaN_wide other) delta_finite.1 delta_finite.2
    simp only [Floating.le, Bool.and_eq_true, decide_eq_true_eq, isNaN_wide number, rank_wide_congr number other ranks]
      at above ⊢
    exact ⟨⟨rfl, above.1.2⟩, above.2⟩
  exact Bool.and_eq_true_iff.mpr ⟨within number other ranks, within other number ranks.symm⟩

end Number

namespace MinMax

open Floating

variable {width : Width} {x y z : MinMax width}

theorem member_iff : x.member = true ↔ x.value.isNaN = false := by simp [member]

theorem member_noWeight : (noWeight : MinMax width).member = false := by
  cases width <;> decide

theorem plus_of_members (insideX : x.member = true) (insideY : y.member = true) :
    plus x y = if x.value.rank < y.value.rank then x else y := by
  have number := member_iff.mp insideX
  have other := member_iff.mp insideY
  simp [plus, Floating.lt, insideX, insideY, number, other]

theorem times_of_members (insideX : x.member = true) (insideY : y.member = true) :
    times x y = if y.value.rank ≤ x.value.rank then x else y := by
  have number := member_iff.mp insideX
  have other := member_iff.mp insideY
  simp [times, Floating.le, insideX, insideY, number, other]

theorem divide_of_members (insideX : x.member = true) (insideY : y.member = true) :
    divide x y = if y.value.rank ≤ x.value.rank then x else noWeight := by
  have number := member_iff.mp insideX
  have other := member_iff.mp insideY
  simp [divide, Floating.le, insideX, insideY, number, other]

theorem member_plus (x y : MinMax width) : (plus x y).member = (x.member && y.member) := by
  cases insideX : x.member <;> cases insideY : y.member
  case true.true =>
    rw [plus_of_members insideX insideY]
    split <;> simp [insideX, insideY]
  all_goals simp [plus, insideX, insideY, member_noWeight]

theorem member_times (x y : MinMax width) : (times x y).member = (x.member && y.member) := by
  cases insideX : x.member <;> cases insideY : y.member
  case true.true =>
    rw [times_of_members insideX insideY]
    split <;> simp [insideX, insideY]
  all_goals simp [times, insideX, insideY, member_noWeight]

theorem comparison (insideX : x.member = true) : Weight.Comparison x y z := by
  have number := member_iff.mp insideX
  constructor
  case refl => exact equal_iff_rank.mpr ⟨number, number, rfl⟩
  case symm =>
    change x.value.equal y.value = y.value.equal x.value
    rw [Bool.eq_iff_iff, equal_iff_rank, equal_iff_rank]
    grind
  case trans =>
    intro same next
    obtain ⟨-, -, ranks⟩ := equal_iff_rank.mp same
    obtain ⟨-, other, ranks'⟩ := equal_iff_rank.mp next
    exact equal_iff_rank.mpr ⟨number, other, ranks.trans ranks'⟩

theorem plus_inside (insideX : x.member = true) (insideY : y.member = true) : (plus x y).member = true := by
  rw [member_plus, insideX, insideY]
  rfl

theorem times_inside (insideX : x.member = true) (insideY : y.member = true) : (times x y).member = true := by
  rw [member_times, insideX, insideY]
  rfl

theorem rank_plus (insideX : x.member = true) (insideY : y.member = true) :
    (plus x y).value.rank = min x.value.rank y.value.rank := by
  rw [plus_of_members insideX insideY]
  split <;> omega

theorem rank_times (insideX : x.member = true) (insideY : y.member = true) :
    (times x y).value.rank = max x.value.rank y.value.rank := by
  rw [times_of_members insideX insideY]
  split <;> omega

theorem equal_of_rank_eq (insideX : x.member = true) (insideY : y.member = true)
    (same : x.value.rank = y.value.rank) : Weight.equal x y = true :=
  equal_iff_rank.mpr ⟨member_iff.mp insideX, member_iff.mp insideY, same⟩

theorem plus_assoc (insideX : x.member = true) (insideY : y.member = true) (insideZ : z.member = true) :
    plus x (plus y z) = plus (plus x y) z := by
  rw [plus_of_members insideY insideZ, plus_of_members insideX insideY]
  split <;> split <;> simp only [plus_of_members, insideX, insideY, insideZ] <;> grind

theorem times_assoc (insideX : x.member = true) (insideY : y.member = true) (insideZ : z.member = true) :
    times x (times y z) = times (times x y) z := by
  rw [times_of_members insideY insideZ, times_of_members insideX insideY]
  split <;> split <;> simp only [times_of_members, insideX, insideY, insideZ] <;> grind

theorem arithmetic (insideX : x.member = true) (insideY : y.member = true) (insideZ : z.member = true) :
    Weight.Arithmetic x y z := by
  have numberX := member_iff.mp insideX
  have bounds := rank_bounds numberX
  have zero : (⟨infinity⟩ : MinMax width).member = true := member_iff.mpr isNaN_infinity
  have one : (⟨infinity.neg⟩ : MinMax width).member = true := member_iff.mpr isNaN_neg_infinity
  constructor
  case plus_assoc => exact plus_assoc insideX insideY insideZ
  case plus_comm =>
    apply equal_of_rank_eq (plus_inside insideX insideY) (plus_inside insideY insideX)
    exact (rank_plus insideX insideY).trans ((Int.min_comm ..).trans (rank_plus insideY insideX).symm)
  case plus_zero =>
    change plus x ⟨infinity⟩ = x
    rw [plus_of_members insideX zero]
    split
    next => rfl
    next least => exact congrArg mk (eq_infinity numberX (Int.not_lt.mp least)).symm
  case zero_plus =>
    change plus ⟨infinity⟩ x = x
    rw [plus_of_members zero insideX]
    exact if_neg (Int.not_lt.mpr bounds.2)
  case times_assoc => exact times_assoc insideX insideY insideZ
  case times_one =>
    change times x ⟨infinity.neg⟩ = x
    rw [times_of_members insideX one]
    exact if_pos bounds.1
  case one_times =>
    change times ⟨infinity.neg⟩ x = x
    rw [times_of_members one insideX]
    split
    next most => exact congrArg mk (eq_neg_infinity numberX most).symm
    next => rfl
  case times_zero =>
    change times x ⟨infinity⟩ = ⟨infinity⟩
    rw [times_of_members insideX zero]
    split
    next least => exact congrArg mk (eq_infinity numberX least)
    next => rfl
  case zero_times =>
    change times ⟨infinity⟩ x = ⟨infinity⟩
    rw [times_of_members zero insideX]
    exact if_pos bounds.2
  case times_comm =>
    intro _
    apply equal_of_rank_eq (times_inside insideX insideY) (times_inside insideY insideX)
    exact (rank_times insideX insideY).trans ((Int.max_comm ..).trans (rank_times insideY insideX).symm)
  case times_plus =>
    intro _
    apply equal_of_rank_eq (times_inside insideX (plus_inside insideY insideZ))
      (plus_inside (times_inside insideX insideY) (times_inside insideX insideZ))
    rw [rank_times insideX (plus_inside insideY insideZ), rank_plus insideY insideZ,
      rank_plus (times_inside insideX insideY) (times_inside insideX insideZ), rank_times insideX insideY,
      rank_times insideX insideZ]
    omega
  case plus_times =>
    intro _
    apply equal_of_rank_eq (times_inside (plus_inside insideX insideY) insideZ)
      (plus_inside (times_inside insideX insideZ) (times_inside insideY insideZ))
    rw [rank_times (plus_inside insideX insideY) insideZ, rank_plus insideX insideY,
      rank_plus (times_inside insideX insideZ) (times_inside insideY insideZ), rank_times insideX insideZ,
      rank_times insideY insideZ]
    omega
  case plus_self =>
    intro _
    exact (plus_of_members insideX insideX).trans (ite_self x)
  case plus_chooses =>
    intro _
    change plus x y = x ∨ plus x y = y
    rw [plus_of_members insideX insideY]
    exact ite_eq_or_eq ..

/-- The quotient of a product by a factor is the product itself. -/
theorem times_divide (insideX : x.member = true) (insideY : y.member = true) :
    divide (times x y) x = times x y ∧ divide (times x y) y = times x y := by
  have inside := times_inside insideX insideY
  rw [divide_of_members inside insideX, divide_of_members inside insideY, rank_times insideX insideY]
  exact ⟨if_pos (Int.le_max_left ..), if_pos (Int.le_max_right ..)⟩

theorem members_of_divide (inside : (divide x y).member = true) : x.member = true ∧ y.member = true := by
  cases insideX : x.member <;> cases insideY : y.member
  case true.true => exact ⟨rfl, rfl⟩
  all_goals simp [divide, insideX, insideY, member_noWeight] at inside

theorem members_of_times (inside : (times x y).member = true) : x.member = true ∧ y.member = true := by
  rwa [member_times, Bool.and_eq_true] at inside

theorem quotients (x y : MinMax width) : Weight.Quotients x y := by
  have absorbs {x y : MinMax width} (insideX : x.member = true) (insideY : y.member = true) :
      Weight.equal (times x y) (times x (times x y)) = true ∧ Weight.equal (times x y) (times (times x y) y) = true ∧
      Weight.equal (times x y) (times (times x y) x) = true := by
    have inside := times_inside insideX insideY
    refine ⟨?_, ?_, ?_⟩
    all_goals
      refine equal_of_rank_eq inside (by simp [member_times, insideX, insideY]) ?_
      simp only [rank_times, inside, insideX, insideY]
      omega
  constructor
  case left =>
    intro _ inside
    obtain ⟨insideX, insideY⟩ := members_of_times (members_of_divide inside).1
    change Weight.equal (times x y) (times x (divide (times x y) x)) = true
    rw [(times_divide insideX insideY).1]
    exact (absorbs insideX insideY).1
  case right =>
    intro _ inside
    obtain ⟨insideX, insideY⟩ := members_of_times (members_of_divide inside).1
    change Weight.equal (times x y) (times (divide (times x y) y) y) = true
    rw [(times_divide insideX insideY).2]
    exact (absorbs insideX insideY).2.1
  case either =>
    intro _ inside
    obtain ⟨insideX, insideY⟩ := members_of_times (members_of_divide inside).1
    change Weight.equal (times x y) (times (divide (times x y) x) x) = true
    rw [(times_divide insideX insideY).1]
    exact (absorbs insideX insideY).2.2

theorem lawful (width : Width) : Weight.Lawful (MinMax width) where
  closure := {
    zero := member_iff.mpr isNaN_infinity
    one := member_iff.mpr isNaN_neg_infinity
    noWeight := member_noWeight
    plus := member_plus
    times := member_times
    divide _ _ _ := members_of_divide }
  tolerant _ _ := Number.approxEqual_of_equal
  comparison _ _ _ insideX _ _ := comparison insideX
  arithmetic _ _ _ := arithmetic
  quotients := quotients
  reversal _ _ insideX insideY := {
    restore := rfl
    plus := equal_of_rank_eq (plus_inside insideX insideY) (plus_inside insideX insideY) rfl
    times := (arithmetic insideX insideY insideX).times_comm rfl }
  sides _ := ⟨rfl, rfl⟩

end MinMax

namespace Boolean

theorem exists_of_member {x : Boolean} (inside : Weight.member x = true) : ∃ value, x = ⟨some value⟩ := by
  obtain ⟨_ | value⟩ := x
  · cases inside
  · exact ⟨value, rfl⟩

theorem lawful : Weight.Lawful Boolean where
  closure := by
    constructor
    case plus => rintro ⟨_ | x⟩ ⟨_ | y⟩ <;> rfl
    case times => rintro ⟨_ | x⟩ ⟨_ | y⟩ <;> rfl
    case divide => rintro side ⟨_ | x⟩ ⟨_ | _ | _⟩ inside <;> first | exact ⟨rfl, rfl⟩ | cases inside
    all_goals rfl
  tolerant _ _ same := same
  comparison x y z _ _ _ := .of_beq fun _ _ => rfl
  arithmetic x y z insideX insideY insideZ := by
    obtain ⟨x, rfl⟩ := exists_of_member insideX
    obtain ⟨y, rfl⟩ := exists_of_member insideY
    obtain ⟨z, rfl⟩ := exists_of_member insideZ
    constructor <;> revert x y z <;> decide
  quotients x y := by
    rcases x with ⟨_ | _ | _⟩ <;> rcases y with ⟨_ | _ | _⟩ <;> constructor <;> decide
  reversal x y insideX insideY := by
    obtain ⟨x, rfl⟩ := exists_of_member insideX
    obtain ⟨y, rfl⟩ := exists_of_member insideY
    constructor <;> revert x y <;> decide
  sides _ := ⟨rfl, rfl⟩

end Boolean

end Transducer
