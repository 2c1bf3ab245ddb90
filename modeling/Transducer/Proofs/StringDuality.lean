import Transducer.Proofs.StringLaws

/-! Reversal carries the label strings of one side to those of the other, with their sums, products and quotients. It
still does where the two sides compute by code of their own, which compares from the front on the one and cuts slices
off the back on the other, since that code agrees with the recursive definitions. -/

namespace Transducer

theorem Side.opposite_opposite (side : Side) : side.opposite.opposite = side := by cases side <;> rfl

/-- Where the divisor stands once a product has been turned around. -/
def DivisionSide.opposite : DivisionSide → DivisionSide
  | left => right
  | right => left
  | any => any

namespace LabelString

variable {side : Side} {word divisor rest : List Label}

namespace Slices

/-- The labels at the same places, up to the first that differ. -/
def agreement (first second : List Label) : List (Label × Label) :=
  (first.zip second).takeWhile fun (x, y) => x == y

/-- The common end is cut off at its length, which is found by comparing backwards. -/
def common : Side → List Label → List Label → List Label
  | .left, first, second => (agreement first second).map Prod.fst
  | .right, first, second => first.drop (first.length - (agreement first.reverse second.reverse).length)

/-- The divisor is compared with the slice of its own length at the front or at the back. -/
def rest? : Side → DivisionSide → List Label → List Label → Option (List Label)
  | .left, .left, word, divisor =>
    if divisor.length ≤ word.length then
      let (head, tail) := word.splitAt divisor.length
      if head = divisor then some tail else none
    else none
  | .right, .right, word, divisor =>
    if divisor.length ≤ word.length then
      let (head, tail) := word.splitAt (word.length - divisor.length)
      if tail = divisor then some head else none
    else none
  | _, _, _, _ => none

theorem map_agreement (first second : List Label) :
    (agreement first second).map Prod.fst = commonFront first second := by
  induction first generalizing second with
  | nil => rfl
  | cons x first ih =>
    cases second with
    | nil => rfl
    | cons y second =>
      rw [commonFront, ← ih]
      by_cases same : x = y
      · simp [agreement, same]
      · simp [agreement, same]

theorem common_eq (side : Side) (first second : List Label) :
    common side first second = LabelString.common side first second := by
  cases side with
  | left => exact map_agreement first second
  | right =>
    have begins : commonFront first.reverse second.reverse <+: first.reverse :=
      (prefix_commonFront_iff.mp List.prefix_rfl).1
    have ends : commonBack first second <:+ first := by
      rwa [← List.reverse_prefix, commonBack, List.reverse_reverse]
    have counted : (agreement first.reverse second.reverse).length = (commonBack first second).length := by
      rw [commonBack, List.length_reverse, ← map_agreement, List.length_map]
    rw [common, counted]
    exact (List.suffix_iff_eq_drop.mp ends).symm

theorem rest?_front : rest? .left .left word divisor = some rest ↔ word = divisor ++ rest := by
  simp only [rest?, List.splitAt_eq, Option.ite_none_right_eq_some, Option.some_inj]
  constructor
  · rintro ⟨-, same, rfl⟩
    exact (List.take_append_drop ..).symm.trans (congrArg (· ++ _) same)
  · rintro rfl
    exact ⟨by simp, List.take_left, List.drop_left⟩

theorem rest?_back : rest? .right .right word divisor = some rest ↔ word = rest ++ divisor := by
  simp only [rest?, List.splitAt_eq, Option.ite_none_right_eq_some, Option.some_inj]
  constructor
  · rintro ⟨-, same, rfl⟩
    exact (List.take_append_drop ..).symm.trans (congrArg (_ ++ ·) same)
  · rintro rfl
    have before : rest.length = (rest ++ divisor).length - divisor.length := by simp
    exact ⟨by simp, List.drop_left' before, List.take_left' before⟩

theorem rest?_eq (side : Side) (division : DivisionSide) (word divisor : List Label) :
    rest? side division word divisor = LabelString.rest? side division word divisor := by
  cases side <;> cases division
  case left.left => exact Option.ext fun rest => rest?_front.trans stripFront?_eq_some.symm
  case right.right => exact Option.ext fun rest => rest?_back.trans stripBack?_eq_some.symm
  all_goals rfl

end Slices

theorem reverse_inj {x y : LabelString side} : reverse x = reverse y ↔ x = y :=
  (Function.LeftInverse.injective fun x => (reversal x x).restore).eq_iff

theorem reverse_rest? (side : Side) (division : DivisionSide) (word divisor : List Label) :
    (rest? side division word divisor).map List.reverse =
      rest? side.opposite division.opposite word.reverse divisor.reverse := by
  cases side <;> cases division
  case left.left =>
    change (stripFront? divisor word).map List.reverse = stripBack? divisor.reverse word.reverse
    rw [stripBack?, List.reverse_reverse, List.reverse_reverse]
  case right.right =>
    change (stripBack? divisor word).map List.reverse = stripFront? divisor.reverse word.reverse
    rw [stripBack?, Option.map_map]
    cases stripFront? divisor.reverse word.reverse with
    | none => rfl
    | some rest => exact congrArg some (List.reverse_reverse rest)
  all_goals rfl

theorem reverse_divide (division : DivisionSide) (x y : LabelString side) :
    reverse (divide division x y) = divide division.opposite (reverse x) (reverse y) := by
  cases x <;> cases y
  case labels.labels word divisor =>
    rw [divide_labels, reverse, reverse, divide_labels, ← reverse_rest?]
    cases rest? side division word divisor <;> rfl
  all_goals rfl

/-- What reversal keeps and what it turns around. The strings it leads to are compared from the other side. -/
structure Dual (x y : LabelString side) : Prop where
  twice : side.opposite_opposite ▸ reverse (reverse x) = x
  plus : reverse (Weight.plus x y) = Weight.plus (reverse x) (reverse y)
  times : reverse (Weight.times x y) = Weight.times (reverse y) (reverse x)
  divide : ∀ division, reverse (Weight.divide division x y) =
    Weight.divide division.opposite (reverse x) (reverse y)
  member : Weight.member (reverse x) = Weight.member x
  zero : reverse x = Weight.zero ↔ x = Weight.zero
  one : reverse x = Weight.one ↔ x = Weight.one
  noWeight : reverse x = Weight.noWeight ↔ x = Weight.noWeight

/-- Reversal is an exact duality of the strings of one side and those of the other, on which sums and quotients may as
well be taken by slices. -/
theorem reversal_dual :
    (∀ {side : Side} (x y : LabelString side), Dual x y) ∧
    (∀ side first second, Slices.common side first second = common side first second) ∧
    ∀ side division word divisor, Slices.rest? side division word divisor = rest? side division word divisor := by
  refine ⟨fun {side} x y => ?_, Slices.common_eq, Slices.rest?_eq⟩
  have reversed := reversal x y
  constructor
  case twice => cases side <;> cases x <;> exact reversed.restore
  case plus => exact eq_of_beq reversed.plus
  case times => exact eq_of_beq reversed.times
  case divide => exact fun division => reverse_divide division x y
  case member => cases x <;> rfl
  -- The three constants of one side are those of the other reversed.
  case zero => exact reverse_inj (y := infinity)
  case one => exact reverse_inj (y := labels [])
  case noWeight => exact reverse_inj (y := bad)

end LabelString

end Transducer
