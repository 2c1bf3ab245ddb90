import Transducer.Proofs.OrderLaws
import Transducer.Proofs.StringLaws
import Transducer.Weight.Catalog

/-! Division finds a quotient exactly when there is one. A label string has at most one quotient by a word on its side,
and a number is its own quotient by whatever does not exceed it. A nested weight is divided leaf by leaf. -/

namespace Transducer

/-- The division that cuts off what strings of a side are compared by. -/
def Side.division : Side → DivisionSide
  | left => .left
  | right => .right

namespace Weight

variable {W : Type} [Weight W]

/-- The product of a divisor and a quotient, with the divisor on the side of the division. -/
def regain (division : DivisionSide) (divisor quotient : W) : W :=
  match division with
  | .left | .any => times divisor quotient
  | .right => times quotient divisor

/-- The division gives a weight if and only if some value solves its equation, and then it gives such a value. -/
structure Solves (division : DivisionSide) (x y : W) : Prop where
  exists_iff : member (divide division x y) = true ↔ ∃ quotient, equal (regain division y quotient) x = true
  regains : member (divide division x y) = true → equal (regain division y (divide division x y)) x = true

end Weight

namespace LabelString

variable {side : Side} {x quotient : LabelString side} {word divisor rest : List Label}

/-- A word with the divisor put back on the side where strings are compared. -/
def joined (side : Side) (divisor rest : List Label) : List Label :=
  match side with
  | .left => divisor ++ rest
  | .right => rest ++ divisor

theorem rest?_eq_some : rest? side side.division word divisor = some rest ↔ word = joined side divisor rest := by
  cases side with
  | left => exact stripFront?_eq_some
  | right => exact stripBack?_eq_some

theorem regain_labels (divisor rest : List Label) :
    Weight.regain side.division (labels divisor) (labels rest : LabelString side) =
      labels (joined side divisor rest) := by
  cases side <;> rfl

theorem member_regain (divisor : List Label) (quotient : LabelString side) :
    Weight.member (Weight.regain side.division (labels divisor) quotient) = Weight.member quotient := by
  cases side <;> cases quotient <;> rfl

/-- Whatever a word is multiplied with on its side is found again. -/
theorem divide_regain (divisor : List Label) (quotient : LabelString side) :
    Weight.divide side.division (Weight.regain side.division (labels divisor) quotient) (labels divisor) =
      quotient := by
  cases quotient with
  | labels rest =>
    rw [regain_labels]
    change divide side.division (labels (joined side divisor rest)) (labels divisor) = labels rest
    rw [divide_labels, rest?_eq_some.mpr rfl, Option.elim_some]
  | infinity => cases side <;> rfl
  | bad => cases side <;> rfl

theorem regain_divide (inside : Weight.member (Weight.divide side.division x (labels divisor)) = true) :
    Weight.regain side.division (labels divisor) (Weight.divide side.division x (labels divisor)) = x := by
  cases x with
  | labels word =>
    have divided : Weight.divide side.division (labels word : LabelString side) (labels divisor) =
        (rest? side side.division word divisor).elim bad labels := divide_labels side.division word divisor
    rw [divided] at inside ⊢
    cases found : rest? side side.division word divisor with
    | none =>
      rw [found] at inside
      cases inside
    | some rest => rw [Option.elim_some, regain_labels, rest?_eq_some.mp found]
  | infinity => cases side <;> rfl
  | bad => cases inside

/-- Where a quotient is a weight, it is the only solution of its equation. -/
theorem regain_eq_iff (inside : Weight.member (Weight.divide side.division x (labels divisor)) = true) :
    Weight.regain side.division (labels divisor) quotient = x ↔
      quotient = Weight.divide side.division x (labels divisor) := by
  constructor
  · rintro rfl
    exact (divide_regain divisor quotient).symm
  · rintro rfl
    exact regain_divide inside

theorem solves (inside : Weight.member x = true) (divisor : List Label) :
    Weight.Solves side.division x (labels divisor) where
  exists_iff := by
    constructor
    · intro found
      exact ⟨_, equal_of_eq (regain_divide found)⟩
    · rintro ⟨quotient, solved⟩
      obtain rfl := eq_of_beq solved
      rwa [divide_regain, ← member_regain]
  regains found := equal_of_eq (regain_divide found)

end LabelString

namespace MinMax

variable {width : Width} {x y quotient : MinMax width}

theorem member_regain (division : DivisionSide) :
    (Weight.regain division y quotient).member = (y.member && quotient.member) := by
  cases division with
  | left | any => exact member_times y quotient
  | right => exact (member_times quotient y).trans (Bool.and_comm ..)

theorem rank_regain (division : DivisionSide) (insideY : y.member = true) (insideQuotient : quotient.member = true) :
    (Weight.regain division y quotient).value.rank = max y.value.rank quotient.value.rank := by
  cases division with
  | left | any => exact rank_times insideY insideQuotient
  | right => exact (rank_times insideQuotient insideY).trans (Int.max_comm ..)

/-- The greater of the divisor and another number is the dividend only if the divisor is not above it, and then the
dividend itself will do. -/
theorem solves (division : DivisionSide) (insideX : x.member = true) (insideY : y.member = true) :
    Weight.Solves division x y := by
  have below_iff : Weight.member (Weight.divide division x y) = true ↔ y.value.rank ≤ x.value.rank := by
    change (divide x y).member = true ↔ _
    rw [divide_of_members insideX insideY]
    split
    next below => exact iff_of_true insideX below
    next above => exact iff_of_false (Bool.eq_false_iff.mp member_noWeight) above
  have regained (below : y.value.rank ≤ x.value.rank) :
      Weight.equal (Weight.regain division y (Weight.divide division x y)) x = true := by
    change Weight.equal (Weight.regain division y (divide x y)) x = true
    rw [divide_of_members insideX insideY, if_pos below]
    refine equal_of_rank_eq (by rw [member_regain, insideX, insideY]; rfl) insideX ?_
    rw [rank_regain division insideY insideX, Int.max_eq_right below]
  constructor
  case exists_iff =>
    refine ⟨fun found => ⟨_, regained (below_iff.mp found)⟩, ?_⟩
    rintro ⟨quotient, solved⟩
    obtain ⟨number, -, ranks⟩ := Floating.equal_iff_rank.mp solved
    have insides := member_iff.mpr number
    rw [member_regain, insideY, Bool.true_and] at insides
    rw [rank_regain division insideY insides] at ranks
    exact below_iff.mpr (ranks ▸ Int.le_max_left ..)
  case regains => exact fun found => regained (below_iff.mp found)

end MinMax

namespace Product

variable {V W : Type} [Weight V] [Weight W] {division : DivisionSide} {x y quotient : Product V W}

theorem regain_eq : Weight.regain division y quotient =
    ⟨Weight.regain division y.first quotient.first, Weight.regain division y.second quotient.second⟩ := by
  cases division <;> rfl

theorem solves (first : Weight.Solves division x.first y.first) (second : Weight.Solves division x.second y.second) :
    Weight.Solves division x y where
  exists_iff := by
    rw [member_iff]
    change Weight.member (Weight.divide division x.first y.first) = true ∧
      Weight.member (Weight.divide division x.second y.second) = true ↔ _
    rw [first.exists_iff, second.exists_iff]
    constructor
    · rintro ⟨⟨one, here⟩, other, there⟩
      refine ⟨⟨one, other⟩, ?_⟩
      rw [regain_eq]
      exact equal_iff.mpr ⟨here, there⟩
    · rintro ⟨quotient, solved⟩
      rw [regain_eq] at solved
      obtain ⟨here, there⟩ := equal_iff.mp solved
      exact ⟨⟨_, here⟩, _, there⟩
  regains found := by
    obtain ⟨here, there⟩ := member_iff.mp found
    rw [regain_eq]
    exact equal_iff.mpr ⟨first.regains here, second.regains there⟩

end Product

/-- What a leaf of a nested weight can be divided by exactly: a word on the side of its string, and every number. -/
def BuiltIn.Divides (division : DivisionSide) : (type : BuiltIn) → type.Carrier → Prop
  | labelString side, y => division = side.division ∧ ∃ divisor, y = .labels divisor
  | minMax _, y => y.member = true
  | tropical _, _ => False
  | log _, _ => False
  | signedLog _, _ => False
  | boolean, _ => False

theorem BuiltIn.Divides.solves {division : DivisionSide} {type : BuiltIn} {x y : type.Carrier}
    (divides : type.Divides division y) (inside : Weight.member x = true) : Weight.Solves division x y := by
  cases type with
  | labelString side =>
    obtain ⟨rfl, divisor, rfl⟩ := divides
    exact LabelString.solves inside divisor
  | minMax width => exact MinMax.solves division inside divides
  | tropical width => cases divides
  | log width => cases divides
  | signedLog width => cases divides
  | boolean => cases divides

namespace WeightType

/-- The place of a built-in type in a nested one. -/
inductive Leaf : WeightType → BuiltIn → Type
  | here {type : BuiltIn} : Leaf (builtIn type) type
  | first {first second : WeightType} {type : BuiltIn} (leaf : Leaf first type) : Leaf (product first second) type
  | second {first second : WeightType} {type : BuiltIn} (leaf : Leaf second type) : Leaf (product first second) type

variable {type : WeightType} {leafType : BuiltIn} {division : DivisionSide}

def Leaf.get : {type : WeightType} → {leafType : BuiltIn} → Leaf type leafType → type.Carrier → leafType.Carrier
  | _, _, here, w => w
  | _, _, first leaf, w => leaf.get w.first
  | _, _, second leaf, w => leaf.get w.second

/-- Whatever works component by component works leaf by leaf. -/
theorem Leaf.get_componentwise (operation : (type : WeightType) → type.Carrier → type.Carrier → type.Carrier)
    (pairs : ∀ (first second : WeightType) (x y : (product first second).Carrier),
      operation (product first second) x y = ⟨operation first x.first y.first, operation second x.second y.second⟩)
    (leaf : Leaf type leafType) (x y : type.Carrier) :
    leaf.get (operation type x y) = operation (builtIn leafType) (leaf.get x) (leaf.get y) := by
  induction leaf with
  | here => rfl
  | first leaf ih =>
    rw [pairs]
    exact ih x.first y.first
  | second leaf ih =>
    rw [pairs]
    exact ih x.second y.second

theorem Leaf.get_divide (leaf : Leaf type leafType) (division : DivisionSide) (x y : type.Carrier) :
    leaf.get (Weight.divide division x y) = Weight.divide division (leaf.get x) (leaf.get y) :=
  leaf.get_componentwise (fun _ => Weight.divide division) (fun _ _ _ _ => rfl) x y

theorem member_iff {w : type.Carrier} : Weight.member w = true ↔
    ∀ {leafType : BuiltIn} (leaf : type.Leaf leafType), Weight.member (leaf.get w) = true := by
  induction type with
  | builtIn type =>
    refine ⟨fun inside leafType leaf => ?_, fun all => all .here⟩
    cases leaf
    exact inside
  | product first second ihFirst ihSecond =>
    rw [Product.member_iff, ihFirst, ihSecond]
    refine ⟨fun both leafType leaf => ?_, fun all => ⟨fun leaf => all (.first leaf), fun leaf => all (.second leaf)⟩⟩
    cases leaf with
    | first leaf => exact both.1 leaf
    | second leaf => exact both.2 leaf

theorem solves {x y : type.Carrier} (inside : Weight.member x = true)
    (divides : ∀ {leafType : BuiltIn} (leaf : type.Leaf leafType), leafType.Divides division (leaf.get y)) :
    Weight.Solves division x y := by
  induction type with
  | builtIn type => exact (divides .here).solves inside
  | product first second ihFirst ihSecond =>
    obtain ⟨one, other⟩ := Product.member_iff.mp inside
    exact Product.solves (ihFirst one fun leaf => divides (.first leaf))
      (ihSecond other fun leaf => divides (.second leaf))

end WeightType

open Weight in
/-- A quotient is a weight exactly when there is one. A string has no other by a word on its side, a number is one of
itself by any number that is not above it, and a nested weight has one if all its leaves have. -/
theorem divisions_settle :
    (∀ {side : Side} {x : LabelString side} (divisor : List Label), member x = true →
      (member (divide side.division x (.labels divisor)) = true ↔
        ∃ quotient, regain side.division (.labels divisor) quotient = x) ∧
      (member (divide side.division x (.labels divisor)) = true → ∀ quotient,
        regain side.division (.labels divisor) quotient = x ↔ quotient = divide side.division x (.labels divisor))) ∧
    (∀ {side : Side} (divisor : List Label) (quotient : LabelString side),
      divide side.division (regain side.division (.labels divisor) quotient) (.labels divisor) = quotient) ∧
    (∀ {width : Width} {x y : MinMax width} (division : DivisionSide), member x = true → member y = true →
      (member (divide division x y) = true ↔ ∃ quotient, equal (times y quotient) x = true) ∧
      (member (divide division x y) = true → equal (times y (divide division x y)) x = true)) ∧
    (∀ {type : WeightType} (division : DivisionSide) (x y : type.Carrier), member (divide division x y) = true ↔
      ∀ {leafType : BuiltIn} (leaf : type.Leaf leafType),
        member (divide division (leaf.get x) (leaf.get y)) = true) ∧
    ∀ {type : WeightType} {x y : type.Carrier} (division : DivisionSide), member x = true →
      (∀ {leafType : BuiltIn} (leaf : type.Leaf leafType), leafType.Divides division (leaf.get y)) →
      Solves division x y := by
  refine ⟨fun {side x} divisor inside => ⟨?_, fun found quotient => LabelString.regain_eq_iff found⟩,
    LabelString.divide_regain, fun {width x y} _ insideX insideY => ?_, fun {type} division x y => ?_,
    fun _ => WeightType.solves⟩
  · rw [(LabelString.solves inside divisor).exists_iff]
    exact exists_congr fun quotient => beq_iff_eq
  · have settled := MinMax.solves .left insideX insideY
    exact ⟨settled.exists_iff, settled.regains⟩
  · rw [WeightType.member_iff]
    exact forall₂_congr fun leafType leaf => by rw [leaf.get_divide]

/-- A string beside two numbers. -/
abbrev stampType : WeightType :=
  .product (.builtIn (.labelString .left)) (.product (.builtIn (.minMax .single)) (.builtIn (.minMax .double)))

def stamp : stampType.Carrier := ⟨.labels [1, 2, 3], ⟨.ofInt 5⟩, ⟨Floating.zero.neg⟩⟩

theorem stamp_divides :
    let divisor : stampType.Carrier := ⟨.labels [1, 2], ⟨.ofInt 5⟩, ⟨.zero⟩⟩
    Weight.Solves .left stamp divisor ∧ Weight.member (Weight.divide .left stamp divisor) = true ∧
      Weight.equal (Weight.times divisor.second.second (Weight.divide .any stamp.second.second divisor.second.second))
        stamp.second.second = true ∧
      (∀ quotient : LabelString .left, Weight.times (.labels [1, 2]) quotient = .labels [1, 2, 3] ↔
        quotient = .labels [3]) ∧
      ¬ ∃ quotient : LabelString .right, Weight.times quotient (.labels [1, 2]) = .labels [1, 2, 3] := by
  intro divisor
  obtain ⟨strings, -, numbers, -, nested⟩ := divisions_settle
  have inside : Weight.member stamp = true := by decide +kernel
  have found : Weight.member (Weight.divide .left stamp divisor) = true := by decide +kernel
  refine ⟨nested .left inside fun {leafType} leaf => ?_, found, ?_, ?_, ?_⟩
  · rcases leaf with _ | leaf | leaf
    · cases leaf
      exact ⟨rfl, _, rfl⟩
    · have numbersInside : divisor.second.first.member = true ∧ divisor.second.second.member = true := by
        decide +kernel
      rcases leaf with _ | leaf | leaf <;> cases leaf
      · exact numbersInside.1
      · exact numbersInside.2
  · exact (numbers .any (by decide +kernel) (by decide +kernel)).2 (by decide +kernel)
  · exact (@strings .left (.labels [1, 2, 3]) [1, 2] rfl).2 rfl
  · exact mt (@strings .right (.labels [1, 2, 3]) [1, 2] rfl).1.mpr (by decide)

end Transducer
