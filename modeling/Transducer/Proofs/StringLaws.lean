import Transducer.Proofs.WeightLaws
import Transducer.Weight.LabelString

/-! Laws of label strings. What two strings have in common on their side is a greatest lower bound, concatenation on
that side distributes over it, and only there a string can be cut off again. -/

namespace Transducer.LabelString

section Common

theorem commonFront_comm (first second : List Label) : commonFront first second = commonFront second first := by
  induction first generalizing second with
  | nil => cases second <;> rfl
  | cons x first ih =>
    cases second with
    | nil => rfl
    | cons y second =>
      unfold commonFront
      by_cases same : x = y
      · rw [if_pos same, if_pos same.symm, ih, same]
      · rw [if_neg same, if_neg (Ne.symm same)]

theorem commonFront_self (word : List Label) : commonFront word word = word := by
  induction word with
  | nil => rfl
  | cons x word ih => rw [commonFront, if_pos rfl, ih]

theorem commonFront_assoc (first second third : List Label) :
    commonFront first (commonFront second third) = commonFront (commonFront first second) third := by
  induction first generalizing second third with
  | nil => rfl
  | cons x first ih =>
    cases second with
    | nil => rfl
    | cons y second =>
      cases third with
      | nil => simp [commonFront]
      | cons z third => grind [commonFront]

/-- What two words have in common is the longest of their common beginnings. -/
theorem prefix_commonFront_iff {word first second : List Label} :
    word <+: commonFront first second ↔ word <+: first ∧ word <+: second := by
  induction first generalizing word second with
  | nil => exact ⟨fun begins => ⟨begins, begins.trans List.nil_prefix⟩, And.left⟩
  | cons x first ih =>
    cases second with
    | nil => exact ⟨fun begins => ⟨begins.trans List.nil_prefix, begins⟩, And.right⟩
    | cons y second =>
      cases word with
      | nil => exact iff_of_true List.nil_prefix ⟨List.nil_prefix, List.nil_prefix⟩
      | cons z word =>
        rw [commonFront]
        by_cases same : x = y
        · rw [if_pos same, List.cons_prefix_cons, List.cons_prefix_cons, List.cons_prefix_cons, ih, same]
          exact and_and_left
        · rw [if_neg same, List.cons_prefix_cons, List.cons_prefix_cons]
          refine ⟨fun begins => absurd begins.length_le (Nat.not_succ_le_zero _), fun begins => ?_⟩
          exact absurd (begins.1.1.symm.trans begins.2.1) same

/-- What the same word stands in front of has that word in common. -/
theorem commonFront_append (word first second : List Label) :
    commonFront (word ++ first) (word ++ second) = word ++ commonFront first second := by
  induction word with
  | nil => rfl
  | cons x word ih => rw [List.cons_append, List.cons_append, commonFront, if_pos rfl, ih, List.cons_append]

/-- What is cut off is found in front of what is left, and nowhere else. -/
theorem stripFront?_eq_some {front word rest : List Label} :
    stripFront? front word = some rest ↔ word = front ++ rest := by
  induction front generalizing word with
  | nil => exact Option.some_inj
  | cons x front ih =>
    cases word with
    | nil => exact ⟨nofun, nofun⟩
    | cons y word =>
      rw [stripFront?, List.cons_append, List.cons.injEq]
      by_cases same : x = y
      · rw [if_pos same, ih, and_iff_right same.symm]
      · rw [if_neg same]
        exact ⟨nofun, fun split => absurd split.1.symm same⟩

theorem stripBack?_eq_some {back word rest : List Label} :
    stripBack? back word = some rest ↔ word = rest ++ back := by
  rw [stripBack?, Option.map_eq_some_iff]
  constructor
  · rintro ⟨mirrored, found, rfl⟩
    rw [← List.reverse_inj, stripFront?_eq_some.mp found, List.reverse_append, List.reverse_reverse]
  · rintro rfl
    exact ⟨rest.reverse, stripFront?_eq_some.mpr (List.reverse_append ..), List.reverse_reverse rest⟩

theorem stripFront?_append (front word : List Label) : stripFront? front (front ++ word) = some word :=
  stripFront?_eq_some.mpr rfl

theorem stripBack?_append (word back : List Label) : stripBack? back (word ++ back) = some word :=
  stripBack?_eq_some.mpr rfl

theorem common_comm (side : Side) (first second : List Label) :
    common side first second = common side second first := by
  cases side with
  | left => exact commonFront_comm first second
  | right => exact congrArg List.reverse (commonFront_comm ..)

theorem common_self (side : Side) (word : List Label) : common side word word = word := by
  cases side with
  | left => exact commonFront_self word
  | right => rw [common, commonBack, commonFront_self, List.reverse_reverse]

theorem common_assoc (side : Side) (first second third : List Label) :
    common side first (common side second third) = common side (common side first second) third := by
  cases side with
  | left => exact commonFront_assoc first second third
  | right => simp only [common, commonBack, List.reverse_reverse, commonFront_assoc]

theorem common_left_append (word first second : List Label) :
    common .left (word ++ first) (word ++ second) = word ++ common .left first second :=
  commonFront_append word first second

theorem common_right_append (first second word : List Label) :
    common .right (first ++ word) (second ++ word) = common .right first second ++ word := by
  simp only [common, commonBack, List.reverse_append, commonFront_append, List.reverse_reverse]

/-- Reversal exchanges the sides. -/
theorem reverse_common (side : Side) (first second : List Label) :
    (common side first second).reverse = common side.opposite first.reverse second.reverse := by
  cases side with
  | left => simp only [common, Side.opposite, commonBack, List.reverse_reverse]
  | right => simp only [common, Side.opposite, commonBack, List.reverse_reverse]

end Common

variable {side : Side} {x y z : LabelString side}

theorem divide_labels (division : DivisionSide) (word divisor : List Label) :
    divide division (labels word : LabelString side) (labels divisor) =
      (rest? side division word divisor).elim bad labels := by
  cases found : rest? side division word divisor <;> simp [divide, found]

theorem equal_of_eq (same : x = y) : Weight.equal x y = true := beq_iff_eq.mpr same

/-- A member is a word or infinity. -/
inductive Member : LabelString side → Prop
  | labels (word : List Label) : Member (labels word)
  | infinity : Member infinity

theorem member_iff : Weight.member x = true ↔ Member x := by
  cases x with
  | labels word => exact ⟨fun _ => .labels word, fun _ => rfl⟩
  | infinity => exact ⟨fun _ => .infinity, fun _ => rfl⟩
  | bad => exact ⟨nofun, nofun⟩

theorem arithmetic (insideX : Member x) (insideY : Member y) (insideZ : Member z) : Weight.Arithmetic x y z := by
  constructor
  case plus_assoc =>
    change plus x (plus y z) = plus (plus x y) z
    cases insideX <;> cases insideY <;> cases insideZ <;> simp [plus, common_assoc]
  case plus_comm =>
    apply equal_of_eq
    change plus x y = plus y x
    cases insideX <;> cases insideY <;> simp [plus, common_comm]
  case times_assoc =>
    change times x (times y z) = times (times x y) z
    cases insideX <;> cases insideY <;> cases insideZ <;> simp [times]
  case plus_zero => cases insideX <;> rfl
  case zero_plus => cases insideX <;> rfl
  case times_one =>
    change times x (labels []) = x
    cases insideX <;> simp [times]
  case one_times => cases insideX <;> rfl
  case times_zero => cases insideX <;> rfl
  case zero_times => cases insideX <;> rfl
  case times_comm => cases side <;> exact nofun
  case times_plus =>
    intro declared
    apply equal_of_eq
    change times x (plus y z) = plus (times x y) (times x z)
    cases side with
    | left => cases insideX <;> cases insideY <;> cases insideZ <;> simp [plus, times, common_left_append]
    | right => cases declared
  case plus_times =>
    intro declared
    apply equal_of_eq
    change times (plus x y) z = plus (times x z) (times y z)
    cases side with
    | left => cases declared
    | right => cases insideX <;> cases insideY <;> cases insideZ <;> simp [plus, times, common_right_append]
  case plus_self =>
    intro _
    change plus x x = x
    cases insideX <;> simp [plus, common_self]
  case plus_chooses => cases side <;> exact nofun

theorem quotients (x y : LabelString side) : Weight.Quotients x y := by
  constructor
  case left =>
    intro declared inside
    apply equal_of_eq
    cases side with
    | right => cases declared
    | left =>
      change times x y = times x (divide .left (times x y) x)
      cases x <;> cases y <;> first | rfl | cases inside | skip
      next first second => simp [times, divide, rest?, stripFront?_append]
  case right =>
    intro declared inside
    apply equal_of_eq
    cases side with
    | left => cases declared
    | right =>
      change times x y = times (divide .right (times x y) y) y
      cases x <;> cases y <;> first | rfl | cases inside | skip
      next first second => simp [times, divide, rest?, stripBack?_append]
  case either => cases side <;> exact nofun

theorem reversal (x y : LabelString side) : Weight.Reversal x y := by
  constructor
  case restore =>
    change restore (reverse x) = x
    cases x <;> simp [restore, reverse]
  case plus =>
    apply equal_of_eq
    change reverse (plus x y) = plus (reverse x) (reverse y)
    cases x <;> cases y <;> simp [plus, reverse, reverse_common]
  case times =>
    apply equal_of_eq
    change reverse (times x y) = times (reverse y) (reverse x)
    cases x <;> cases y <;> simp [times, reverse]

theorem closure : Weight.Closure (LabelString side) := by
  constructor
  case plus => intro x y; cases x <;> cases y <;> rfl
  case times => intro x y; cases x <;> cases y <;> rfl
  case divide =>
    intro division x y inside
    cases x <;> cases y <;> first | exact ⟨rfl, rfl⟩ | cases inside
  all_goals rfl

theorem lawful (side : Side) : Weight.Lawful (LabelString side) where
  closure := closure
  tolerant _ _ same := same
  comparison _ _ _ _ _ _ := .of_beq fun _ _ => rfl
  arithmetic _ _ _ insideX insideY insideZ :=
    arithmetic (member_iff.mp insideX) (member_iff.mp insideY) (member_iff.mp insideZ)
  quotients := quotients
  reversal x y _ _ := reversal x y
  sides := by cases side <;> exact nofun

end Transducer.LabelString
