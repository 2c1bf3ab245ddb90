import Transducer.Bytes
import Transducer.Floating.Rounding
import Transducer.Weight.Format

/-! Weights: the operations that every weight type offers, and the laws that it declares. Equality is
the type's own and need not be reflexive, since some values are no numbers. -/

namespace Transducer

/-- The laws that a weight type declares. -/
structure Properties where
  leftSemiring : Bool := false
  rightSemiring : Bool := false
  commutative : Bool := false
  idempotent : Bool := false
  path : Bool := false
deriving DecidableEq, Repr

namespace Properties

/-- Each law with its bit and its name. -/
def table (properties : Properties) : List (Bool × Nat × String) :=
  [(properties.leftSemiring, 1, "left_semiring"), (properties.rightSemiring, 2, "right_semiring"),
   (properties.commutative, 4, "commutative"), (properties.idempotent, 8, "idempotent"),
   (properties.path, 16, "path")]

def mask (properties : Properties) : Nat :=
  (properties.table.map fun (holds, bit, _) => if holds then bit else 0).sum

/-- Bits beyond the five laws mean nothing. -/
def ofMask (mask : Nat) : Properties :=
  ⟨mask.testBit 0, mask.testBit 1, mask.testBit 2, mask.testBit 3, mask.testBit 4⟩

def names (properties : Properties) : List String :=
  (properties.table.filter fun (holds, _, _) => holds).map fun (_, _, name) => name

def both (first second : Properties) : Properties where
  leftSemiring := first.leftSemiring && second.leftSemiring
  rightSemiring := first.rightSemiring && second.rightSemiring
  commutative := first.commutative && second.commutative
  idempotent := first.idempotent && second.idempotent
  path := first.path && second.path

end Properties

/-- The side on which the divisor stood in the product to be undone. -/
inductive DivisionSide where
  | left
  | right
  | any
deriving DecidableEq, Repr

class Weight (W : Type) where
  zero : W
  one : W
  /-- The value that stands for the lack of a result. -/
  noWeight : W
  plus : W → W → W
  times : W → W → W
  divide : DivisionSide → W → W → W
  member : W → Bool
  equal : W → W → Bool
  approxEqual : Floating .single → W → W → Bool
  properties : Properties
  typeName : String
  /-- The fields of the text when composites are written without parentheses. -/
  textArity : Nat
  render : TextFormat → W → List Char
  parse : TextFormat → List Char → Except WeightTextError W
  encode : W → Except EncodeError Bytes
  decode : Decoder W

/-- A weight type with its reversal into an opposite type and back. -/
class Reversible (W : Type) where
  Opposite : Type
  oppositeWeight : Weight Opposite
  reverse : W → Opposite
  restore : Opposite → W

attribute [reducible, instance] Reversible.oppositeWeight

namespace Weight

variable {W : Type} [Weight W]

def isZero (w : W) : Bool := equal w zero
def isOne (w : W) : Bool := equal w one

/-- The text in the default format. -/
def display (w : W) : List Char := render {} w

/-- The product of `count` copies. -/
def power (w : W) (count : Nat) : W := count.repeat (times w) one

/-- The tolerance of comparisons, one part in 1024. -/
def delta : Floating .single := Floating.ofQuotient false (2 ^ 149) (2 ^ 10)

def approx (first second : W) : Bool := approxEqual delta first second

end Weight

end Transducer
