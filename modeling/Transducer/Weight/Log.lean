import Transducer.Weight.Number

/-! Log weights: negative logarithms of non-negative reals, added and multiplied as the reals are. -/

namespace Transducer

structure Log (width : Width) where
  value : Floating width
deriving DecidableEq

namespace Log

variable {width : Width}

def noWeight : Log width := ⟨.nan⟩

def member (w : Log width) : Bool := Number.isLog w.value

def plus (x y : Log width) : Log width :=
  if !x.member || !y.member then noWeight else ⟨Number.logPlus x.value y.value⟩

def times (x y : Log width) : Log width :=
  if !x.member || !y.member then noWeight
  else if x.value.isPositiveInfinity || y.value.isPositiveInfinity then ⟨.infinity⟩
  else ⟨x.value + y.value⟩

/-- The product is commutative, so the side does not matter. -/
def divide (x y : Log width) : Log width :=
  if !x.member || !y.member || y.value.isPositiveInfinity then noWeight
  else if x.value.isPositiveInfinity then ⟨.infinity⟩
  else ⟨x.value - y.value⟩

def typeName (width : Width) : String := "log" ++ Number.suffix width

instance : Weight (Log width) where
  zero := ⟨.infinity⟩
  one := ⟨.zero⟩
  noWeight := noWeight
  plus := plus
  times := times
  divide _ := divide
  member := member
  equal x y := x.value.equal y.value
  approxEqual delta x y := Number.approxEqual delta x.value y.value
  properties := ⟨true, true, true, false, false⟩
  typeName := typeName width
  textArity := 1
  render _ w := Number.render w.value
  parse _ text := Log.mk <$> Number.parseAs (typeName width) text
  encode w := .ok (Number.encode w.value)
  decode := Log.mk <$> Number.decode

instance : Reversible (Log width) where
  Opposite := Log width
  oppositeWeight := inferInstance
  reverse := id
  restore := id

end Log

end Transducer
