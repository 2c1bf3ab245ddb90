import Transducer.Weight.Basic

/-! The laws of weights, checked on samples. A round takes three samples and checks every law that the
declared properties promise. The first law that fails ends the test, so the order of the checks counts. -/

namespace Transducer

structure Check (W : Type) where
  law : String
  samples : List W
  holds : Bool

structure Violation where
  typeName : String
  law : String
  samples : List (List Char)
deriving DecidableEq, Repr

def Violation.message (violation : Violation) : String :=
  violation.typeName ++ " weight violates " ++ violation.law ++ " for ["
    ++ ", ".intercalate (violation.samples.map String.ofList) ++ "]"

/-- The outcome of a test with the number of samples that it drew. -/
structure TestReport where
  draws : Nat
  violation : Option Violation
deriving DecidableEq, Repr

namespace Laws

variable {W : Type} [Weight W]

open Weight

def semiring (x y z : W) : List (Check W) :=
  let declared := properties W
  let absent : W := noWeight
  [⟨"closure of plus", [x, y], member (plus x y)⟩,
   ⟨"closure of times", [x, y], member (times x y)⟩,
   ⟨"associativity of plus", [x, y, z], approx (plus x (plus y z)) (plus (plus x y) z)⟩,
   ⟨"associativity of times", [x, y, z], approx (times x (times y z)) (times (times x y) z)⟩,
   ⟨"right identity of plus", [x], equal (plus x zero) x⟩,
   ⟨"left identity of plus", [x], equal (plus zero x) x⟩,
   ⟨"right identity of times", [x], equal (times x one) x⟩,
   ⟨"left identity of times", [x], equal (times one x) x⟩,
   ⟨"no_weight is a non-member", [x], !member absent⟩,
   ⟨"no_weight absorbs plus", [x], !member (plus x absent)⟩,
   ⟨"no_weight absorbs plus", [x], !member (plus absent x)⟩,
   ⟨"no_weight absorbs times", [x], !member (times x absent)⟩,
   ⟨"no_weight absorbs times", [x], !member (times absent x)⟩,
   ⟨"commutativity of plus", [x, y], approx (plus x y) (plus y x)⟩,
   ⟨"commutativity of times", [x, y],
    !declared.commutative || approx (times x y) (times y x)⟩,
   ⟨"zero annihilates times", [x], equal (times x zero) zero⟩,
   ⟨"zero annihilates times", [x], equal (times zero x) zero⟩,
   ⟨"power 0 is one", [x], equal (power x 0) one⟩,
   ⟨"power 1 is identity", [x], equal (power x 1) x⟩,
   ⟨"power 3 is repeated times", [x], equal (power x 3) (times x (times x x))⟩,
   ⟨"left distributivity", [x, y, z],
    !declared.leftSemiring || approx (times x (plus y z)) (plus (times x y) (times x z))⟩,
   ⟨"right distributivity", [x, y, z],
    !declared.rightSemiring || approx (times (plus x y) z) (plus (times x z) (times y z))⟩,
   ⟨"idempotence", [x], !declared.idempotent || equal (plus x x) x⟩,
   ⟨"path property", [x, y], !declared.path || equal (plus x y) x || equal (plus x y) y⟩,
   ⟨"declaration of a left or right semiring", [x],
    declared.leftSemiring || declared.rightSemiring⟩,
   ⟨"commutative implies semiring", [x],
    !declared.commutative || (declared.leftSemiring && declared.rightSemiring)⟩]

/-- A quotient that is no member promises nothing. -/
def division (x y : W) : List (Check W) :=
  let declared := properties W
  let absent : W := noWeight
  let product := times x y
  let fromLeft := divide .left product x
  let fromRight := divide .right product y
  let either := divide .right product x
  [⟨"left division", [x, y],
    !declared.leftSemiring || !member fromLeft || approx product (times x fromLeft)⟩,
   ⟨"left division by no_weight", [x],
    !declared.leftSemiring || !member (divide .left x absent)⟩,
   ⟨"left division of no_weight", [x],
    !declared.leftSemiring || !member (divide .left absent x)⟩,
   ⟨"right division", [x, y],
    !declared.rightSemiring || !member fromRight || approx product (times fromRight y)⟩,
   ⟨"right division by no_weight", [x],
    !declared.rightSemiring || !member (divide .right x absent)⟩,
   ⟨"right division of no_weight", [x],
    !declared.rightSemiring || !member (divide .right absent x)⟩,
   ⟨"commutative division", [x, y],
    !declared.commutative || !member either || approx product (times either x)⟩]

def reversal [Reversible W] (x y : W) : List (Check W) :=
  let reversed (w : W) : Reversible.Opposite W := Reversible.reverse w
  [⟨"reverse involution", [x], equal (Reversible.restore (reversed x)) x⟩,
   ⟨"reverse of plus", [x, y], equal (reversed (plus x y)) (plus (reversed x) (reversed y))⟩,
   ⟨"reverse of times", [x, y], equal (reversed (times x y)) (times (reversed y) (reversed x))⟩]

def equality (x y z : W) : List (Check W) :=
  [⟨"reflexivity of equality", [x], equal x x⟩,
   ⟨"symmetry of equality", [x, y], equal x y == equal y x⟩,
   ⟨"transitivity of equality", [x, y, z], !(equal x y && equal y z) || equal x z⟩]

/-- The bytes of a weight are read back to the end. -/
def readsBack (x : W) (bytes : Bytes) : Bool :=
  match (decode : Decoder W) bytes with
  | .ok (w, rest) => equal w x && rest.isEmpty
  | .error _ => false

def writing (format : TextFormat) (x : W) : List (Check W) :=
  let written := encode x
  [⟨"binary write", [x], written.toOption.isSome⟩,
   ⟨"binary round trip", [x], written.toOption.any (readsBack x)⟩,
   ⟨"text round trip", [x], (parse format (render format x)).toOption.any fun w => approx w x⟩]

def copying (x : W) : List (Check W) :=
  ["copy", "assignment", "self-assignment"].map fun law => ⟨law, [x], equal x x⟩

variable [Reversible W]

def round (divides : Bool) (format : TextFormat) (x y z : W) : List (Check W) :=
  semiring x y z ++ (if divides then division x y else []) ++ reversal x y ++ equality x y z
    ++ writing format x ++ copying x

def violation? (checks : List (Check W)) : Option Violation :=
  (checks.find? fun check => !check.holds).map fun check =>
    ⟨typeName W, check.law, check.samples.map display⟩

/-- So many rounds on the samples from the given one on. -/
def testFrom (divides : Bool) (format : TextFormat) (samples : Nat → W) (first : Nat) : Nat → TestReport
  | 0 => ⟨first, none⟩
  | rounds + 1 =>
    match violation? (round divides format (samples first) (samples (first + 1)) (samples (first + 2))) with
    | some violation => ⟨first + 3, some violation⟩
    | none => testFrom divides format samples (first + 3) rounds

def test (divides : Bool) (format : TextFormat) (samples : Nat → W) (rounds : Nat) : TestReport :=
  testFrom divides format samples 0 rounds

end Laws

end Transducer
