import Transducer.Weight.Boolean
import Transducer.Weight.LabelString
import Transducer.Weight.Log
import Transducer.Weight.MinMax
import Transducer.Weight.Product
import Transducer.Weight.SignedLog
import Transducer.Weight.Tropical

/-! Sums of many weights. Log weights carry the rounding error of one addition into the next, and all
other weights are just added. -/

namespace Transducer

/-- How a weight is added to a running sum, with what is carried from one addition to the next. -/
class Accumulate (W : Type) where
  Carry : Type
  noCarry : Carry
  accumulate : W → W → Carry → W × Carry

structure Adder (W : Type) [Accumulate W] where
  sum : W
  carry : Accumulate.Carry W

namespace Adder

variable {W : Type} [Accumulate W]

def ofSum (sum : W) : Adder W := ⟨sum, Accumulate.noCarry⟩

def new [Weight W] : Adder W := ofSum Weight.zero

def add (adder : Adder W) (w : W) : Adder W :=
  let (sum, carry) := Accumulate.accumulate adder.sum w adder.carry
  ⟨sum, carry⟩

def addMany (adder : Adder W) (w : W) : Nat → Adder W
  | 0 => adder
  | count + 1 => addMany (adder.add w) w count

end Adder

/-- Addition that carries nothing. -/
@[reducible] def plainAccumulate (W : Type) [Weight W] : Accumulate W where
  Carry := Unit
  noCarry := ()
  accumulate sum w _ := (Weight.plus sum w, ())

namespace Log

variable {width : Width}

/-- The sum corrected by the error of the last addition, and the error of this one. -/
def compensatedPlus (x y carry : Floating width) : Floating width × Floating width :=
  if x.isPositiveInfinity then (y, carry)
  else if y.isPositiveInfinity then (x, carry)
  else
    let (low, high) := Number.ordered x y
    let step := (-Number.logExcess low high).resize width - carry
    let total := low + step
    (total, (total - low) - step)

instance : Accumulate (Log width) where
  Carry := Floating width
  noCarry := .zero
  accumulate sum w carry :=
    if !sum.member || !w.member then (noWeight, carry)
    else
      let (total, error) := compensatedPlus sum.value w.value carry
      (⟨total⟩, error)

end Log

instance {width : Width} : Accumulate (Tropical width) := plainAccumulate _
instance {width : Width} : Accumulate (MinMax width) := plainAccumulate _
instance {width : Width} : Accumulate (SignedLog width) := plainAccumulate _
instance {side : Side} : Accumulate (LabelString side) := plainAccumulate _
instance : Accumulate Boolean := plainAccumulate _
instance {V W : Type} [Weight V] [Weight W] : Accumulate (Product V W) := plainAccumulate _

end Transducer
