import Transducer.Weight.Number

/-! Tropical weights: the sum is the minimum and the product the sum. -/

namespace Transducer

structure Tropical (width : Width) where
  value : Floating width
deriving DecidableEq

namespace Tropical

variable {width : Width}

def noWeight : Tropical width := ⟨.nan⟩

def member (w : Tropical width) : Bool := Number.isLog w.value

def plus (x y : Tropical width) : Tropical width :=
  if !x.member || !y.member then noWeight else if x.value.lt y.value then x else y

def times (x y : Tropical width) : Tropical width :=
  if !x.member || !y.member then noWeight
  else if x.value.isPositiveInfinity || y.value.isPositiveInfinity then ⟨.infinity⟩
  else ⟨x.value + y.value⟩

/-- The product is commutative, so the side does not matter. -/
def divide (x y : Tropical width) : Tropical width :=
  if !x.member || !y.member || y.value.isPositiveInfinity then noWeight
  else if x.value.isPositiveInfinity then ⟨.infinity⟩
  else ⟨x.value - y.value⟩

def typeName (width : Width) : String := "tropical" ++ Number.suffix width

instance : Weight (Tropical width) where
  zero := ⟨.infinity⟩
  one := ⟨.zero⟩
  noWeight := noWeight
  plus := plus
  times := times
  divide _ := divide
  member := member
  equal x y := x.value.equal y.value
  approxEqual delta x y := Number.approxEqual delta x.value y.value
  properties := ⟨true, true, true, true, true⟩
  typeName := typeName width
  textArity := 1
  render _ w := Number.render w.value
  parse _ text := Tropical.mk <$> Number.parseAs (typeName width) text
  encode w := .ok (Number.encode w.value)
  decode := Tropical.mk <$> Number.decode

instance : Reversible (Tropical width) where
  Opposite := Tropical width
  oppositeWeight := inferInstance
  reverse := id
  restore := id

end Tropical

end Transducer
