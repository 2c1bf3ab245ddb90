import Transducer.Weight.Number

/-! Min-max weights: the sum is the minimum and the product the maximum of two numbers. -/

namespace Transducer

structure MinMax (width : Width) where
  value : Floating width
deriving DecidableEq

namespace MinMax

variable {width : Width}

def noWeight : MinMax width := ⟨.nan⟩

def member (w : MinMax width) : Bool := !w.value.isNaN

def plus (x y : MinMax width) : MinMax width :=
  if !x.member || !y.member then noWeight else if x.value.lt y.value then x else y

def times (x y : MinMax width) : MinMax width :=
  if !x.member || !y.member then noWeight else if y.value.le x.value then x else y

/-- A number is the maximum of another and something exactly when it is not below it. -/
def divide (x y : MinMax width) : MinMax width :=
  if !x.member || !y.member then noWeight else if y.value.le x.value then x else noWeight

def typeName (width : Width) : String := "minmax" ++ Number.suffix width

instance : Weight (MinMax width) where
  zero := ⟨.infinity⟩
  one := ⟨Floating.infinity.neg⟩
  noWeight := noWeight
  plus := plus
  times := times
  divide _ := divide
  member := member
  equal x y := x.value.equal y.value
  approxEqual delta x y := Number.approxEqual delta x.value y.value
  properties := ⟨true, true, true, true, true⟩
  typeName := typeName width
  textArity := 1
  render _ w := Number.render w.value
  parse _ text := MinMax.mk <$> Number.parseAs (typeName width) text
  encode w := .ok (Number.encode w.value)
  decode := MinMax.mk <$> Number.decode

instance : Reversible (MinMax width) where
  Opposite := MinMax width
  oppositeWeight := inferInstance
  reverse := id
  restore := id

end MinMax

end Transducer
