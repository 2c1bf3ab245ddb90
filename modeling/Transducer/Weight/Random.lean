import Transducer.Weight.Boolean
import Transducer.Weight.LabelString
import Transducer.Weight.Log
import Transducer.Weight.MinMax
import Transducer.Weight.Product
import Transducer.Weight.SignedLog
import Transducer.Weight.Tropical

/-! Random weights from a stream of 64-bit words. Values are few and small, so that sums and products
of them stay close to exact. -/

namespace Transducer

/-- The words still to be drawn, and how many have been. Zeros follow the last word. -/
structure WordStream where
  words : List UInt64
  taken : Nat := 0

abbrev Draw := StateM WordStream

namespace Draw

def next : Draw UInt64 := fun stream =>
  match stream.words with
  | [] => (0, ⟨[], stream.taken + 1⟩)
  | word :: rest => (word, ⟨rest, stream.taken + 1⟩)

/-- The product of a word of `bits` bits with the count of choices, if its low part is not beyond the
last full multiple of the count. -/
def accept? (bits choices word : Nat) : Option Nat :=
  let zone := choices * 2 ^ (bits - 1 - choices.log2) - 1
  let product := word % 2 ^ bits * choices
  if product % 2 ^ bits ≤ zone then some (product / 2 ^ bits) else none

/-- One of so many choices, each with the same chance. Words that would favour some are passed over,
and the zeros after the last word never are. -/
def choiceFrom (bits choices : Nat) (taken : Nat) : List UInt64 → Nat × WordStream
  | [] => (0, ⟨[], taken + 1⟩)
  | word :: rest =>
    match accept? bits choices word.toNat with
    | some choice => (choice, ⟨rest, taken + 1⟩)
    | none => choiceFrom bits choices (taken + 1) rest

def choice (bits choices : Nat) : Draw Nat := fun stream =>
  choiceFrom bits choices stream.taken stream.words

/-- A fair coin. -/
def coin : Draw Bool := do return (← next).toNat < 2 ^ 63

end Draw

/-- Weight types with random values, of which zero is one only on request. -/
class RandomWeight (W : Type) where
  random : (allowZero : Bool) → Draw W

/-- Numbers from zero up to this one are drawn. -/
def numberLimit : Nat := 5

/-- Strings have up to this many labels, each from one up to this label. -/
def lengthLimit : Nat := 5
def labelLimit : Nat := 5

variable {width : Width}

/-- A number below the limit, or nothing for the limit itself. -/
def drawNumber : Draw (Option (Floating width)) := do
  let number ← Draw.choice 32 (numberLimit + 1)
  return if number < numberLimit then some (.ofInt number) else none

instance : RandomWeight (Tropical width) where
  random allowZero := do
    return ⟨(← drawNumber).getD (if allowZero then .infinity else .ofInt numberLimit)⟩

instance : RandomWeight (Log width) where
  random allowZero := do
    return ⟨(← drawNumber).getD (if allowZero then .infinity else .ofInt numberLimit)⟩

instance : RandomWeight (SignedLog width) where
  random allowZero := do
    let negative ← Draw.coin
    return .make negative ((← drawNumber).getD (if allowZero then .infinity else .ofInt numberLimit))

instance : RandomWeight (MinMax width) where
  random allowZero := do
    let number := (← Draw.choice 32 (2 * numberLimit + 1) : Int) - numberLimit
    if allowZero && number = numberLimit then return ⟨.infinity⟩
    else if number = -numberLimit then return ⟨Floating.infinity.neg⟩
    else return ⟨.ofInt number⟩

instance : RandomWeight Boolean where
  random allowZero := do
    if allowZero then return if ← Draw.coin then .zero else .one
    else return .one

def drawLabels : Nat → Draw (List Label)
  | 0 => return []
  | count + 1 => do
    let label ← Draw.choice 32 labelLimit
    return UInt32.ofNat (label + 1) :: (← drawLabels count)

instance {side : Side} : RandomWeight (LabelString side) where
  random allowZero := do
    let length ← Draw.choice 64 (lengthLimit + 1)
    if allowZero && length = lengthLimit then return .infinity
    else return .labels (← drawLabels length)

instance {V W : Type} [RandomWeight V] [RandomWeight W] : RandomWeight (Product V W) where
  random allowZero := do
    let first ← RandomWeight.random allowZero
    let second ← RandomWeight.random allowZero
    return ⟨first, second⟩

end Transducer
