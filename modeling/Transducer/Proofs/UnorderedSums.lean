import Transducer.Proofs.LowerBounds
import Transducer.Proofs.NonMembers

/-! Running sums of weights that are told apart by what is below them. Below such a sum is what is below all that was
added up, so neither the order of the weights nor how often each one comes makes a difference. A sum of strings is
their longest common front or back. -/

namespace Transducer

open Weight

/-- The types of costs, extremes, truth values and strings, and the pairs of such types. -/
inductive WeightType.Ordered : WeightType → Prop
  | tropical (width : Width) : Ordered (.builtIn (.tropical width))
  | minMax (width : Width) : Ordered (.builtIn (.minMax width))
  | boolean : Ordered (.builtIn .boolean)
  | labelString (side : Side) : Ordered (.builtIn (.labelString side))
  | product {first second : WeightType} : Ordered first → Ordered second → Ordered (.product first second)

namespace WeightType.Ordered

variable {type : WeightType}

/-- They are the types that declare their sums idempotent. -/
theorem iff_idempotent : type.Ordered ↔ (properties type.Carrier).idempotent = true := by
  induction type with
  | builtIn type =>
    cases type with
    | tropical width => exact iff_of_true (tropical width) rfl
    | minMax width => exact iff_of_true (minMax width) rfl
    | boolean => exact iff_of_true boolean rfl
    | labelString side => exact iff_of_true (labelString side) (by cases side <;> rfl)
    | log | signedLog => exact iff_of_false nofun nofun
  | product first second ihFirst ihSecond =>
    change _ ↔ ((properties first.Carrier).idempotent && (properties second.Carrier).idempotent) = true
    rw [Bool.and_eq_true_iff, ← ihFirst, ← ihSecond]
    exact ⟨fun | .product one other => ⟨one, other⟩, fun both => product both.1 both.2⟩

theorem lowerBounds (ordered : type.Ordered) : Nonempty (LowerBounds type.Carrier plus) := by
  induction ordered with
  | tropical width => exact ⟨Tropical.lowerBounds width⟩
  | minMax width => exact ⟨MinMax.sumBounds width⟩
  | boolean => exact ⟨Boolean.lowerBounds⟩
  | labelString side => exact ⟨LabelString.lowerBounds side⟩
  | product _ _ ihFirst ihSecond =>
    obtain ⟨first⟩ := ihFirst
    obtain ⟨second⟩ := ihSecond
    exact ⟨first.product second⟩

end WeightType.Ordered

/-- Nothing is carried from one addition to the next. -/
def Adder.Plain (W : Type) [Weight W] [Accumulate W] : Prop :=
  ∀ (adder : Adder W) (w : W), (adder.add w).sum = plus adder.sum w

theorem WeightType.Ordered.plain {type : WeightType} (ordered : type.Ordered) : Adder.Plain type.Carrier := by
  cases ordered <;> exact fun _ _ => rfl

namespace LowerBounds

variable {W : Type} [Weight W] [Accumulate W] {added : List W}

/-- What is below a running sum is below all that it adds up. -/
theorem sum_spec (bounds : LowerBounds W plus) (plain : Adder.Plain W) (adder : Adder W)
    (inside : member adder.sum = true) (members : ∀ w ∈ added, member w = true) :
    member (adder.run (added.map .add)).sum = true ∧
    ∀ bound, bounds.Below bound (adder.run (added.map .add)).sum ↔
      bounds.Below bound adder.sum ∧ ∀ w ∈ added, bounds.Below bound w := by
  induction added generalizing adder with
  | nil => exact ⟨inside, fun bound => (and_iff_left nofun).symm⟩
  | cons w added ih =>
    have insideW := members w List.mem_cons_self
    have insideSum : member (adder.add w).sum = true := plain adder w ▸ bounds.closed inside insideW
    obtain ⟨insideTotal, below⟩ := ih _ insideSum fun v present => members v (List.mem_cons_of_mem w present)
    refine ⟨insideTotal, fun bound => (below bound).trans ?_⟩
    rw [plain, bounds.below_operation inside insideW, List.forall_mem_cons, and_assoc]

end LowerBounds

/-- Every weight of the one list is equal to some weight of the other. -/
def Weight.Among {W : Type} [Weight W] (first second : List W) : Prop := ∀ w ∈ first, ∃ v ∈ second, equal w v = true

instance {W : Type} [Weight W] (first second : List W) : Decidable (Among first second) :=
  inferInstanceAs (Decidable (∀ w ∈ first, ∃ v ∈ second, equal w v = true))

theorem LowerBounds.below_of_among {W : Type} [Weight W] {operation : W → W → W} (bounds : LowerBounds W operation)
    {first second : List W} (members : ∀ w ∈ first, member w = true) (members' : ∀ w ∈ second, member w = true)
    (among : Among first second) {bound : bounds.Bound} (below : ∀ w ∈ second, bounds.Below bound w) :
    ∀ w ∈ first, bounds.Below bound w := by
  intro w present
  obtain ⟨v, found, same⟩ := among w present
  exact ((bounds.equal_iff (members w present) (members' v found)).mp same bound).mpr (below v found)

namespace LabelString

variable {side : Side} {added : List (LabelString side)}

/-- The sum of strings has just the parts that all of them have. -/
theorem sum_parts (members : ∀ w ∈ added, Weight.member w = true) :
    let sum := (Adder.new.run (added.map .add)).sum
    ((∀ word, labels word ∉ added) → sum = Weight.zero) ∧
    ((∃ word, labels word ∈ added) → ∃ common, sum = labels common ∧
      ∀ part, Part side part common ↔ ∀ word, labels word ∈ added → Part side part word) := by
  intro sum
  obtain ⟨inside, below⟩ := (lowerBounds side).sum_spec (fun _ _ => rfl) .new rfl members
  have bounds (bound : Members side) :
      Members.Below bound.1 sum ↔ ∀ word, labels word ∈ added → bound ≤ .ofWord word := by
    refine (below bound).trans ((and_iff_right bound.le_zero).trans ⟨fun all word present => all _ present, ?_⟩)
    intro words w present
    cases member_iff.mp (members w present) with
    | labels word => exact words word present
    | infinity => exact bound.le_zero
  cases found : sum with
  | labels common =>
    rw [found] at bounds
    refine ⟨fun none => ?_, fun _ => ⟨common, rfl, fun part => bounds (.ofWord part)⟩⟩
    exact (Members.not_zero_le_ofWord ((bounds 0).mpr fun word present => (none word present).elim)).elim
  | infinity =>
    rw [found] at bounds
    refine ⟨fun _ => rfl, fun ⟨word, present⟩ => ?_⟩
    exact (Members.not_zero_le_ofWord ((bounds 0).mp (Members.le_zero 0) word present)).elim
  | bad =>
    change Weight.member sum = true at inside
    rw [found] at inside
    cases inside

end LabelString

open LabelString in
/-- Sums that start from equal members and add up the same weights are equal, in whatever order the weights come and
however often. A sum of strings is the longest common front or back of all words among them, by side. -/
theorem sums_unordered :
    (∀ {type : WeightType}, type.Ordered → ∀ {start start' : type.Carrier} {first second : List type.Carrier},
      member start = true → member start' = true → equal start start' = true →
      (∀ w ∈ first, member w = true) → (∀ w ∈ second, member w = true) → Among first second → Among second first →
      equal ((Adder.ofSum start).run (first.map .add)).sum ((Adder.ofSum start').run (second.map .add)).sum = true) ∧
    ∀ {side : Side} {added : List (LabelString side)}, (∀ w ∈ added, member w = true) →
      let sum := (Adder.new.run (added.map .add)).sum
      ((∀ word, labels word ∉ added) → sum = zero) ∧
      ((∃ word, labels word ∈ added) → ∃ common, sum = labels common ∧
        ∀ part, Part side part common ↔ ∀ word, labels word ∈ added → Part side part word) := by
  refine ⟨?_, sum_parts⟩
  intro type ordered start start' first second inside inside' same members members' among among'
  obtain ⟨bounds⟩ := ordered.lowerBounds
  obtain ⟨insideSum, below⟩ := bounds.sum_spec ordered.plain (.ofSum start) inside members
  obtain ⟨insideSum', below'⟩ := bounds.sum_spec ordered.plain (.ofSum start') inside' members'
  apply (bounds.equal_iff insideSum insideSum').mpr
  intro bound
  rw [below, below']
  apply and_congr
  · exact (bounds.equal_iff inside inside').mp same bound
  · exact ⟨bounds.below_of_among members' members among', bounds.below_of_among members members' among⟩

/-- A cost beside a truth value beside a word. -/
abbrev claimedWordType : WeightType :=
  .product (.builtIn (.tropical .single)) (.product (.builtIn .boolean) (.builtIn (.labelString .left)))

def claimed (cost : Floating .single) (value : Bool) (word : List Label) : claimedWordType.Carrier :=
  ⟨⟨cost⟩, ⟨⟨some value⟩, .labels word⟩⟩

def claims : List claimedWordType.Carrier := [claimed .infinity false [1, 3], claimed Floating.zero.neg true [1, 2]]

def repeatedClaims : List claimedWordType.Carrier :=
  [claimed .zero true [1, 2], claimed .infinity false [1, 3], claimed .zero true [1, 2]]

/-- Words that all end with the last two labels, apart from the one that is no word. -/
def endings : List (LabelString .right) := [.labels [1, 2, 5], zero, .labels [4, 2, 5]]

open LabelString in
theorem claims_unordered :
    equal ((Adder.ofSum zero).run (claims.map .add)).sum ((Adder.ofSum zero).run (repeatedClaims.map .add)).sum = true ∧
    ∃ common, (Adder.new.run (endings.map .add)).sum = labels common ∧
      ∀ part, Part .right part common ↔ ∀ word, labels word ∈ endings → Part .right part word := by
  obtain ⟨sums, words⟩ := sums_unordered
  constructor
  · apply sums (.product (.tropical _) (.product .boolean (.labelString _)))
    all_goals decide +kernel
  · exact (words (by decide)).2 ⟨_, List.mem_cons_self⟩

end Transducer
