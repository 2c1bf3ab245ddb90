import Transducer.Proofs.CompositeText
import Transducer.Proofs.OrderLaws
import Transducer.Proofs.StringLaws
import Transducer.Weight.Catalog

/-! The tests of laws on the types that compute exactly. What a type keeps without tolerance passes every check, and
every sample comes back from its bytes and from its text, so a test runs to its end whatever it draws. -/

namespace Transducer

namespace Laws

open Weight

theorem guarded {declared holds : Bool} (given : declared = true → holds = true) : (!declared || holds) = true := by
  cases declared with
  | false => rfl
  | true => rw [given rfl]; rfl

theorem violation?_eq_none {V : Type} [Weight V] {checks : List (Check V)}
    (all : ∀ check ∈ checks, check.holds = true) : violation? checks = none := by
  have none : checks.find? (fun check => !check.holds) = none := by simpa using all
  rw [violation?, none, Option.map_none]

variable {W : Type} [Weight W] [Reversible W] {x y z v w : W}

theorem equal_of_eq (laws : Lawful W) (inside : member w = true) (same : v = w) : equal v w = true := by
  rw [same]
  exact (laws.comparison w w w inside inside inside).refl

theorem semiring_holds (laws : Lawful W)
    (declared : ((properties W).leftSemiring || (properties W).rightSemiring) = true)
    (insideX : member x = true) (insideY : member y = true) (insideZ : member z = true) :
    ∀ check ∈ semiring x y z, check.holds = true := by
  have arithmetic := laws.arithmetic x y z insideX insideY insideZ
  have plusInside {v w : W} (first : member v = true) (second : member w = true) : member (plus v w) = true := by
    rw [laws.closure.plus, first, second]; rfl
  have timesInside {v w : W} (first : member v = true) (second : member w = true) : member (times v w) = true := by
    rw [laws.closure.times, first, second]; rfl
  have exactly {v w : W} (inside : member w = true) (same : v = w) : equal v w = true := equal_of_eq laws inside same
  have nearly {v w : W} (same : equal v w = true) : approx v w = true := laws.tolerant v w same
  have outside := laws.closure.noWeight
  have plusAbsent : member (plus x noWeight) = false := by rw [laws.closure.plus, outside, Bool.and_false]
  have absentPlus : member (plus noWeight x) = false := by rw [laws.closure.plus, outside, Bool.false_and]
  have timesAbsent : member (times x noWeight) = false := by rw [laws.closure.times, outside, Bool.and_false]
  have absentTimes : member (times noWeight x) = false := by rw [laws.closure.times, outside, Bool.false_and]
  simp only [semiring, List.forall_mem_cons]
  refine ⟨plusInside insideX insideY, timesInside insideX insideY, ?_, ?_, ?_, ?_, ?_, ?_, ?_, ?_, ?_, ?_, ?_, ?_, ?_,
    ?_, ?_, ?_, ?_, ?_, ?_, ?_, ?_, ?_, ?_, ?_, List.forall_mem_nil _⟩
  · exact nearly (exactly (plusInside (plusInside insideX insideY) insideZ) arithmetic.plus_assoc)
  · exact nearly (exactly (timesInside (timesInside insideX insideY) insideZ) arithmetic.times_assoc)
  · exact exactly insideX arithmetic.plus_zero
  · exact exactly insideX arithmetic.zero_plus
  · exact exactly insideX arithmetic.times_one
  · exact exactly insideX arithmetic.one_times
  · rw [outside, Bool.not_false]
  · rw [plusAbsent, Bool.not_false]
  · rw [absentPlus, Bool.not_false]
  · rw [timesAbsent, Bool.not_false]
  · rw [absentTimes, Bool.not_false]
  · exact nearly arithmetic.plus_comm
  · exact guarded fun declared => nearly (arithmetic.times_comm declared)
  · exact exactly laws.closure.zero arithmetic.times_zero
  · exact exactly laws.closure.zero arithmetic.zero_times
  · exact exactly laws.closure.one rfl
  · exact exactly insideX arithmetic.times_one
  · have cube : power x 3 = times x (times x (times x one)) := rfl
    rw [cube, arithmetic.times_one]
    exact exactly (timesInside insideX (timesInside insideX insideX)) rfl
  · exact guarded fun declared => nearly (arithmetic.times_plus declared)
  · exact guarded fun declared => nearly (arithmetic.plus_times declared)
  · exact guarded fun declared => exactly insideX (arithmetic.plus_self declared)
  · rw [Bool.or_assoc]
    refine guarded fun declared => ?_
    rw [Bool.or_eq_true]
    exact (arithmetic.plus_chooses declared).imp (exactly insideX) (exactly insideY)
  · exact declared
  · exact guarded fun declared => Bool.and_eq_true_iff.mpr (laws.sides declared)

theorem division_holds (laws : Lawful W) (x y : W) : ∀ check ∈ division x y, check.holds = true := by
  have quotients := laws.quotients x y
  have outside {side : DivisionSide} {v w : W} (absent : member v = false ∨ member w = false) :
      member (divide side v w) = false := by
    apply Bool.eq_false_iff.mpr
    intro inside
    obtain ⟨dividend, divisor⟩ := laws.closure.divide side v w inside
    simp [dividend, divisor] at absent
  have byAbsent (side : DivisionSide) : member (divide side x noWeight) = false := outside (.inr laws.closure.noWeight)
  have ofAbsent (side : DivisionSide) : member (divide side noWeight x) = false := outside (.inl laws.closure.noWeight)
  simp only [division, List.forall_mem_cons, byAbsent, ofAbsent, Bool.not_false, Bool.or_true, true_and, Bool.or_assoc]
  refine ⟨?_, ?_, ?_, List.forall_mem_nil _⟩
  · exact guarded fun declared => guarded fun inside => laws.tolerant _ _ (quotients.left declared inside)
  · exact guarded fun declared => guarded fun inside => laws.tolerant _ _ (quotients.right declared inside)
  · exact guarded fun declared => guarded fun inside => laws.tolerant _ _ (quotients.either declared inside)

theorem reversal_holds (laws : Lawful W) (insideX : member x = true) (insideY : member y = true) :
    ∀ check ∈ reversal x y, check.holds = true := by
  have reversal := laws.reversal x y insideX insideY
  simp only [Laws.reversal, List.forall_mem_cons]
  exact ⟨equal_of_eq laws insideX reversal.restore, reversal.plus, reversal.times, List.forall_mem_nil _⟩

theorem equality_holds (laws : Lawful W) (insideX : member x = true) (insideY : member y = true)
    (insideZ : member z = true) : ∀ check ∈ equality x y z, check.holds = true := by
  have comparison := laws.comparison x y z insideX insideY insideZ
  simp only [equality, List.forall_mem_cons]
  refine ⟨comparison.refl, beq_iff_eq.mpr comparison.symm, ?_, List.forall_mem_nil _⟩
  refine guarded fun both => ?_
  obtain ⟨first, second⟩ := Bool.and_eq_true_iff.mp both
  exact comparison.trans first second

theorem writing_holds [StoredWeight W] (laws : Lawful W) {format : TextFormat} (inside : member x = true)
    (fits : StoredWeight.Fits x) (restores : Restores format x) : ∀ check ∈ writing format x, check.holds = true := by
  have same := equal_of_eq laws inside rfl
  have encoded : encode x = .ok (written (StoredWeight.fields x)) := StoredWeight.encode_iff.mpr ⟨fits, rfl⟩
  have spelled : Spells (StoredWeight.fields x) (written (StoredWeight.fields x)) [] := by
    simpa using spells_written (StoredWeight.fields x) []
  have decoded : (decode : Decoder W) (written (StoredWeight.fields x)) = .ok (x, []) :=
    StoredWeight.decode_iff.mpr ⟨fits, spelled⟩
  have readBack : readsBack x (written (StoredWeight.fields x)) = true := by
    rw [readsBack, decoded]
    simp [same]
  simp only [writing, List.forall_mem_cons, encoded, restores.reads]
  exact ⟨rfl, readBack, laws.tolerant x x same, List.forall_mem_nil _⟩

theorem copying_holds (laws : Lawful W) (inside : member x = true) : ∀ check ∈ copying x, check.holds = true := by
  simp only [copying, List.map_cons, List.map_nil, List.forall_mem_cons]
  have same := equal_of_eq laws inside rfl
  exact ⟨same, same, same, List.forall_mem_nil _⟩

/-- What passes the tests of a lawful type: a member that can be written, as bytes and as text. -/
structure Sample [StoredWeight W] (format : TextFormat) (x : W) : Prop where
  inside : member x = true
  fits : StoredWeight.Fits x
  restores : Restores format x

variable [StoredWeight W] {format : TextFormat}

theorem round_holds (laws : Lawful W) (declared : ((properties W).leftSemiring || (properties W).rightSemiring) = true)
    (divides : Bool) (first : Sample format x) (second : Sample format y) (third : Sample format z) :
    ∀ check ∈ round divides format x y z, check.holds = true := by
  have dividing : ∀ check ∈ if divides then division x y else [], check.holds = true := by
    split
    next => exact division_holds laws x y
    next => exact List.forall_mem_nil _
  simp only [round, List.forall_mem_append]
  exact ⟨⟨⟨⟨⟨semiring_holds laws declared first.inside second.inside third.inside, dividing⟩,
    reversal_holds laws first.inside second.inside⟩, equality_holds laws first.inside second.inside third.inside⟩,
    writing_holds laws first.inside first.fits first.restores⟩, copying_holds laws first.inside⟩

theorem testFrom_passes (laws : Lawful W)
    (declared : ((properties W).leftSemiring || (properties W).rightSemiring) = true) (divides : Bool)
    {samples : Nat → W} (drawn : ∀ draw, Sample format (samples draw)) (first rounds : Nat) :
    testFrom divides format samples first rounds = ⟨first + 3 * rounds, none⟩ := by
  induction rounds generalizing first with
  | zero => rfl
  | succ rounds ih =>
    have passed := round_holds laws declared divides (drawn first) (drawn (first + 1)) (drawn (first + 2))
    rw [testFrom, violation?_eq_none passed]
    simp only [ih, Nat.mul_succ]
    rw [Nat.add_assoc, Nat.add_comm 3]

end Laws

/-- The types that choose or join their values and never round. -/
def BuiltIn.Exact : BuiltIn → Prop
  | minMax _ => True
  | boolean => True
  | labelString _ => True
  | tropical _ => False
  | log _ => False
  | signedLog _ => False

namespace WeightType

def Exact : WeightType → Prop
  | builtIn type => type.Exact
  | product first second => first.Exact ∧ second.Exact

theorem Exact.lawful {type : WeightType} (exact : type.Exact) : Weight.Lawful type.Carrier := by
  induction type with
  | builtIn type =>
    cases type with
    | minMax width => exact MinMax.lawful width
    | boolean => exact Boolean.lawful
    | labelString side => exact LabelString.lawful side
    | tropical width => cases exact
    | log width => cases exact
    | signedLog width => cases exact
  | product first second ihFirst ihSecond => exact Product.lawful (ihFirst exact.1) (ihSecond exact.2)

theorem Exact.restores {type : WeightType} (exact : type.Exact) {format : TextFormat} (usual : format.Usual)
    {w : type.Carrier} (inside : Weight.member w = true) : Weight.Restores format w := by
  induction type with
  | builtIn type =>
    cases type with
    | minMax width =>
      have number : w.value.isNaN = false := MinMax.member_iff.mp inside
      exact MinMax.restores (usual.plain (Number.render_clear w.value)) (Number.parse_render number)
    | boolean => exact Boolean.restores (usual.plain w.render_clear)
    | labelString side => exact LabelString.restores (usual.plain w.render_clear)
    | tropical width => cases exact
    | log width => cases exact
    | signedLog width => cases exact
  | product first second ihFirst ihSecond =>
    obtain ⟨one, other⟩ := Product.member_iff.mp inside
    exact Product.restores usual.apart (ihFirst exact.1 one) (ihSecond exact.2 other)

end WeightType

/-- The laws of types that compute exactly hold for whatever is drawn, as long as every sample is a member and
no string in it is too long to be written. A test takes three samples a round and finds no violation. -/
theorem exact_types_pass {type : WeightType} (exact : type.Exact)
    (declared : ((Weight.properties type.Carrier).leftSemiring ||
      (Weight.properties type.Carrier).rightSemiring) = true)
    {format : TextFormat} (usual : format.Usual) {samples : Nat → type.Carrier}
    (drawn : ∀ draw, Weight.member (samples draw) = true ∧ StoredWeight.Fits (samples draw)) (divides : Bool)
    (rounds : Nat) : Laws.test divides format samples rounds = ⟨3 * rounds, none⟩ := by
  have all (draw : Nat) : Laws.Sample format (samples draw) :=
    ⟨(drawn draw).1, (drawn draw).2, exact.restores usual (drawn draw).1⟩
  have passed := Laws.testFrom_passes exact.lawful declared divides all 0 rounds
  rwa [Nat.zero_add] at passed

abbrev routeType : WeightType :=
  .product (.builtIn (.labelString .left)) (.product (.builtIn (.minMax .single)) (.builtIn .boolean))

/-- Samples that take their label strings in turn and whose numbers grow. -/
def routes (draw : Nat) : routeType.Carrier :=
  ⟨.labels (List.replicate (draw % 4) 7), ⟨.ofInt draw⟩, .one⟩

theorem routes_pass : Laws.test true { parentheses := some ('(', ')') } routes 1000 = ⟨3000, none⟩ ∧
    Laws.test false {} routes 1000 = ⟨3000, none⟩ := by
  have drawn (draw : Nat) : Weight.member (routes draw) = true ∧ StoredWeight.Fits (routes draw) := by
    have number : (Floating.ofInt draw : Floating .single).isNaN = false := Floating.isNaN_ofUnits _
    have inside : (⟨.ofInt draw⟩ : MinMax .single).member = true := by rw [MinMax.member, number]; rfl
    have short : (List.replicate (draw % 4) (7 : Label)).length ≤ LabelString.maxLength := by
      rw [List.length_replicate, LabelString.maxLength]
      omega
    exact ⟨Product.member_iff.mpr ⟨rfl, Product.member_iff.mpr ⟨inside, rfl⟩⟩, short, trivial, trivial⟩
  have exactly : routeType.Exact := ⟨trivial, trivial, trivial⟩
  exact ⟨exact_types_pass exactly rfl (.inr rfl) drawn true 1000,
    exact_types_pass exactly rfl (.inl rfl) drawn false 1000⟩

end Transducer
