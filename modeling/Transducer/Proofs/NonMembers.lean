import Transducer.Proofs.OrderLaws
import Transducer.Proofs.StringLaws
import Transducer.Weight.Catalog

/-! Values that are no weights never turn into weights again. An operation that gives a member was given members, in
every built-in type by a guard of its own and in a product because it is so in both components. A running sum that has
once left the members stays outside until it is started anew. -/

namespace Transducer

namespace Weight

/-- Members are computed from members only. -/
structure Strict (W : Type) [Weight W] : Prop where
  plus : ∀ {x y : W}, member (plus x y) = true → member x = true ∧ member y = true
  times : ∀ {x y : W}, member (times x y) = true → member x = true ∧ member y = true
  divide : ∀ {side : DivisionSide} {x y : W}, member (divide side x y) = true → member x = true ∧ member y = true

variable {W : Type} [Weight W] {w absent : W}

theorem Closure.strict (closure : Closure W) : Strict W where
  plus {x y} inside := Bool.and_eq_true_iff.mp (closure.plus x y ▸ inside)
  times {x y} inside := Bool.and_eq_true_iff.mp (closure.times x y ▸ inside)
  divide {side x y} := closure.divide side x y

/-- A guard whose answer is outside has let through what is inside. -/
theorem passed {refused : Bool} (outside : member absent = false)
    (inside : member (if refused then absent else w) = true) : refused = false := by
  cases refused with
  | false => rfl
  | true => exact absurd inside (Bool.eq_false_iff.mp outside)

theorem both_passed {first second : Bool} (passed : (!first || !second) = false) : first = true ∧ second = true := by
  simpa using passed

theorem nonmember {first second result : Bool} (absent : first = false ∨ second = false)
    (needs : result = true → first = true ∧ second = true) : result = false := by
  apply Bool.eq_false_iff.mpr
  intro inside
  obtain ⟨one, other⟩ := needs inside
  simp [one, other] at absent

end Weight

open Weight

section Floats

variable {width : Width}

theorem Number.isLog_nan : isLog (.nan : Floating width) = false := by cases width <;> decide

theorem Tropical.strict : Strict (Tropical width) where
  plus inside := both_passed (passed Number.isLog_nan inside)
  times inside := both_passed (passed Number.isLog_nan inside)
  divide inside := both_passed (Bool.or_eq_false_iff.mp (passed Number.isLog_nan inside)).1

theorem Log.strict : Strict (Log width) where
  plus inside := both_passed (passed Number.isLog_nan inside)
  times inside := both_passed (passed Number.isLog_nan inside)
  divide inside := both_passed (Bool.or_eq_false_iff.mp (passed Number.isLog_nan inside)).1

namespace SignedLog

variable {w x y : SignedLog width}

theorem strict : Strict (SignedLog width) where
  plus inside := both_passed (passed Number.isLog_nan inside)
  times inside := both_passed (passed Number.isLog_nan inside)
  divide inside := both_passed (Bool.or_eq_false_iff.mp (passed Number.isLog_nan inside)).1

theorem member_negate (w : SignedLog width) : w.negate.member = w.member := rfl

/-- Where a logarithm has no sign only the numbers that are not negative have one. -/
theorem member_convert (w : SignedLog width) :
    Weight.member (Convertible.convert w : Log width) = (Weight.member w && !w.negative) := by
  change Weight.member (if w.negative then Log.noWeight else ⟨w.value⟩ : Log width) = _
  cases w.negative with
  | false => exact (Bool.and_true _).symm
  | true => exact Number.isLog_nan.trans (Bool.and_false _).symm

theorem members_of_minus (inside : (minus x y).member = true) : x.member = true ∧ y.member = true := by
  rw [← member_negate y]
  exact strict.plus inside

end SignedLog

end Floats

theorem BuiltIn.strict : (type : BuiltIn) → Strict type.Carrier
  | tropical _ => Tropical.strict
  | log _ => Log.strict
  | signedLog _ => SignedLog.strict
  | minMax width => (MinMax.lawful width).closure.strict
  | boolean => Boolean.lawful.closure.strict
  | labelString side => (LabelString.lawful side).closure.strict

theorem Product.strict {V W : Type} [Weight V] [Weight W] (first : Strict V) (second : Strict W) :
    Strict (Product V W) := by
  have both {x y : Product V W} (one : member x.first = true ∧ member y.first = true)
      (other : member x.second = true ∧ member y.second = true) : member x = true ∧ member y = true :=
    ⟨member_iff.mpr ⟨one.1, other.1⟩, member_iff.mpr ⟨one.2, other.2⟩⟩
  constructor
  case plus =>
    intro x y inside
    obtain ⟨one, other⟩ := member_iff.mp inside
    exact both (first.plus one) (second.plus other)
  case times =>
    intro x y inside
    obtain ⟨one, other⟩ := member_iff.mp inside
    exact both (first.times one) (second.times other)
  case divide =>
    intro side x y inside
    obtain ⟨one, other⟩ := member_iff.mp inside
    exact both (first.divide one) (second.divide other)

namespace Adder

/-- What is done to a running sum. -/
inductive Call (W : Type) where
  | add (w : W)
  | reset (sum : W)

variable {W : Type} [Accumulate W]

def call (adder : Adder W) : Call W → Adder W
  | .add w => adder.add w
  | .reset sum => .ofSum sum

def run (adder : Adder W) (calls : List (Call W)) : Adder W := calls.foldl call adder

theorem run_append (adder : Adder W) (calls more : List (Call W)) :
    adder.run (calls ++ more) = (adder.run calls).run more := List.foldl_append

/-- A sum is a member only if all that it adds up are. -/
structure Strict (W : Type) [Weight W] [Accumulate W] : Prop where
  add : ∀ {adder : Adder W} {w : W}, member (adder.add w).sum = true → member adder.sum = true ∧ member w = true

variable [Weight W] {adder : Adder W} {w : W}

theorem Strict.run (strict : Strict W) {added : List W} (inside : member (adder.run (added.map .add)).sum = true) :
    member adder.sum = true := by
  induction added generalizing adder with
  | nil => exact inside
  | cons w added ih => exact (strict.add (ih inside)).1

end Adder

theorem Log.adder_strict {width : Width} : Adder.Strict (Log width) := by
  refine ⟨fun {adder w} inside => ?_⟩
  have added : (adder.add w).sum = if !adder.sum.member || !w.member then noWeight
      else ⟨(compensatedPlus adder.sum.value w.value adder.carry).1⟩ := by
    change (Accumulate.accumulate adder.sum w adder.carry).1 = _
    simp only [Accumulate.accumulate]
    split <;> rfl
  rw [added] at inside
  exact both_passed (passed Number.isLog_nan inside)

theorem BuiltIn.adder_strict : (type : BuiltIn) → Adder.Strict type.Carrier
  | log _ => Log.adder_strict
  | tropical _ => ⟨Tropical.strict.plus⟩
  | signedLog _ => ⟨SignedLog.strict.plus⟩
  | minMax width => ⟨(minMax width).strict.plus⟩
  | boolean => ⟨boolean.strict.plus⟩
  | labelString side => ⟨(labelString side).strict.plus⟩

namespace WeightType

variable {type target : WeightType}

theorem strict (type : WeightType) : Strict type.Carrier := by
  induction type with
  | builtIn type => exact type.strict
  | product first second ihFirst ihSecond => exact Product.strict ihFirst ihSecond

theorem adder_strict (type : WeightType) : Adder.Strict type.Carrier := by
  cases type with
  | builtIn type => exact type.adder_strict
  | product first second => exact ⟨(strict (product first second)).plus⟩

theorem member_reverse (x : type.Carrier) : member (Reversible.reverse x) = member x := by
  induction type with
  | builtIn type =>
    cases type with
    | labelString side => cases x <;> rfl
    | tropical | log | signedLog | minMax | boolean => rfl
  | product first second ihFirst ihSecond => exact congr (congrArg and (ihFirst x.first)) (ihSecond x.second)

theorem member_of_between {v w : Width} {V W : Width → Type} [∀ width, Convertible (V width) (W width)]
    [∀ width, Weight (V width)] [∀ width, Weight (W width)]
    (keeps : ∀ {width : Width} {x : V width}, member (Convertible.convert x : W width) = true → member x = true)
    {convert : V v → W w} (found : convert?.between v w V W = some convert) {x : V v}
    (inside : member (convert x) = true) : member x = true := by
  unfold convert?.between at found
  split at found
  next same =>
    subst same
    cases found
    exact keeps inside
  next => cases found

theorem member_of_convert {convert : type.Carrier → target.Carrier} (found : type.convert? target = some convert)
    {x : type.Carrier} (inside : member (convert x) = true) : member x = true := by
  unfold convert? at found
  split at found
  next same =>
    subst same
    cases found
    exact inside
  next =>
    split at found
    · exact member_of_between (fun inside => inside) found inside
    · exact member_of_between (fun inside => inside) found inside
    · exact member_of_between (fun inside => inside) found inside
    · refine member_of_between (fun {width x} inside => ?_) found inside
      rw [SignedLog.member_convert] at inside
      exact (Bool.and_eq_true_iff.mp inside).1
    · cases found

end WeightType

/-- Whatever is computed with a value that is no weight is none either: sums, products, quotients, powers, reverses,
conversions and differences. No addition to a running sum brings it back among the weights. -/
theorem nonmembers_spread (type : WeightType) :
    (∀ x y : type.Carrier, member x = false ∨ member y = false →
      member (plus x y) = false ∧ member (times x y) = false ∧ ∀ side, member (divide side x y) = false) ∧
    (∀ x : type.Carrier, member x = false →
      (∀ count, 1 ≤ count → member (power x count) = false) ∧ member (Reversible.reverse x) = false ∧
      ∀ (target : WeightType) (convert : type.Carrier → target.Carrier),
        type.convert? target = some convert → member (convert x) = false) ∧
    (∀ {width : Width} (x y : SignedLog width), (member x = false → member x.negate = false) ∧
      (member x = false ∨ member y = false → member (x.minus y) = false)) ∧
    ∀ (adder : Adder type.Carrier) (before : List (Adder.Call type.Carrier)) (w : type.Carrier)
      (after : List type.Carrier), member (adder.run before).sum = false ∨ member w = false →
      member (adder.run (before ++ .add w :: after.map .add)).sum = false := by
  have strict := type.strict
  refine ⟨fun x y absent => ?_, fun x absent => ⟨fun count some => ?_, ?_, fun target convert found => ?_⟩,
    fun {width} x y => ⟨x.member_negate.trans, fun absent => nonmember absent SignedLog.members_of_minus⟩,
    fun adder before w after absent => nonmember absent fun inside => ?_⟩
  · exact ⟨nonmember absent strict.plus, nonmember absent strict.times, fun side => nonmember absent strict.divide⟩
  · obtain ⟨count, rfl⟩ := Nat.exists_eq_succ_of_ne_zero (Nat.ne_of_gt some)
    exact nonmember (.inl absent) strict.times
  · rw [WeightType.member_reverse, absent]
  · exact Bool.eq_false_iff.mpr fun inside => absurd (WeightType.member_of_convert found inside) (by simp [absent])
  · rw [Adder.run_append] at inside
    exact type.adder_strict.add (type.adder_strict.run inside)

/-- The logarithm of a likelihood and what is claimed by it. -/
abbrev claimType : WeightType := .product (.builtIn (.log .single)) (.builtIn .boolean)

/-- An infinite likelihood is no weight, true claim or not. -/
def boundless : claimType.Carrier := ⟨⟨Floating.infinity.neg⟩, .one⟩

theorem boundless_spreads :
    member (plus boundless one) = false ∧ member (times one boundless) = false ∧
    member (divide .left zero boundless) = false ∧ member (power boundless 3) = false ∧
    member (Reversible.reverse boundless) = false ∧
    member (Convertible.convert boundless.first : SignedLog .single) = false ∧
    member (SignedLog.minus .one (Convertible.convert boundless.first : SignedLog .single)) = false ∧
    member ((Adder.ofSum zero).run [.add boundless, .reset one, .add boundless, .add one, .add zero]).sum = false := by
  have absent : member boundless = false := by decide +kernel
  obtain ⟨operations, alone, -, sums⟩ := nonmembers_spread claimType
  obtain ⟨-, lone, differences, -⟩ := nonmembers_spread (.builtIn (.log .single))
  have converted := (lone boundless.first (by decide +kernel)).2.2 (.builtIn (.signedLog .single)) _ rfl
  refine ⟨(operations _ _ (.inl absent)).1, (operations _ _ (.inr absent)).2.1,
    (operations _ _ (.inr absent)).2.2 .left, (alone _ absent).1 3 (by decide), (alone _ absent).2.1, converted, ?_, ?_⟩
  · exact (differences .one _).2 (.inr converted)
  · exact sums _ [.add boundless, .reset one] boundless [one, zero] (.inr absent)

end Transducer
