import Transducer.Weight.Log

/-! Signed log weights: a sign and a negative logarithm of the magnitude, so that reals of both signs
can be added and subtracted. The number zero has one form only, with the positive sign. -/

namespace Transducer

structure SignedLog (width : Width) where
  negative : Bool
  value : Floating width
  zero_positive : value.isPositiveInfinity = true → negative = false
deriving DecidableEq

namespace SignedLog

variable {width : Width}

/-- A sign and a magnitude, without the sign where the magnitude is that of zero. -/
def make (negative : Bool) (value : Floating width) : SignedLog width :=
  ⟨negative && !value.isPositiveInfinity, value, fun zero => by rw [zero]; exact Bool.and_false _⟩

theorem make_eq_iff {w : SignedLog width} {negative : Bool} :
    make negative w.value = w ↔ w.value.isPositiveInfinity = true ∨ negative = w.negative := by
  obtain ⟨stored, value, zero_positive⟩ := w
  by_cases zero : value.isPositiveInfinity = true
  · simp [make, zero, zero_positive zero]
  · simp [make, zero]

def zero : SignedLog width := make false .infinity
def one : SignedLog width := make false .zero
def noWeight : SignedLog width := make false .nan

def member (w : SignedLog width) : Bool := Number.isLog w.value

def negate (w : SignedLog width) : SignedLog width := make (!w.negative) w.value

/-- Of two signs the one with the greater magnitude, and so with the smaller logarithm, wins. -/
def plus (x y : SignedLog width) : SignedLog width :=
  if !x.member || !y.member then noWeight
  else if x.value.isPositiveInfinity then y
  else if y.value.isPositiveInfinity then x
  else if x.negative = y.negative then make x.negative (Number.logPlus x.value y.value)
  else if x.value.equal y.value then zero
  else if x.value.lt y.value then make x.negative (Number.logMinus x.value y.value)
  else make y.negative (Number.logMinus y.value x.value)

def minus (x y : SignedLog width) : SignedLog width := plus x y.negate

def times (x y : SignedLog width) : SignedLog width :=
  if !x.member || !y.member then noWeight
  else if x.value.isPositiveInfinity || y.value.isPositiveInfinity then zero
  else make (x.negative != y.negative) (x.value + y.value)

/-- The product is commutative, so the side does not matter. -/
def divide (x y : SignedLog width) : SignedLog width :=
  if !x.member || !y.member || y.value.isPositiveInfinity then noWeight
  else if x.value.isPositiveInfinity then zero
  else make (x.negative != y.negative) (x.value - y.value)

def typeName (width : Width) : String := "signed_log" ++ Number.suffix width

def signText (negative : Bool) : List Char := if negative then ['-', '1'] else ['1']

def readSign? (text : List Char) : Option Bool :=
  if text = signText false then some false else if text = signText true then some true else none

def parse (format : TextFormat) (text : List Char) : Except WeightTextError (SignedLog width) := do
  let (sign, value) ← format.split text 1
  match readSign? sign, Number.parse value with
  | some negative, some value => return make negative value
  | _, _ => throw (.invalid (typeName width) text)

/-- The sign is stored as the number one with that sign. -/
def signNumber (negative : Bool) : Floating width := Floating.ofInt (if negative then -1 else 1)

def decode : Decoder (SignedLog width) := do
  let sign : Floating width ← Number.decode
  let value ← Number.decode
  if sign.equal (signNumber false) then return make false value
  else if sign.equal (signNumber true) then return make true value
  else
    let text := (Number.wide sign).renderWith "inf" "NaN"
    throw (.invalid ("invalid signed log weight sign " ++ String.ofList text))

instance : Weight (SignedLog width) where
  zero := zero
  one := one
  noWeight := noWeight
  plus := plus
  times := times
  divide _ := divide
  member := member
  equal x y := x.negative == y.negative && x.value.equal y.value
  approxEqual delta x y := x.negative == y.negative && Number.approxEqual delta x.value y.value
  properties := ⟨true, true, true, false, false⟩
  typeName := typeName width
  textArity := 2
  render format w := format.join (signText w.negative) (Number.render w.value)
  parse := parse
  encode w := .ok (Number.encode (signNumber w.negative : Floating width) ++ Number.encode w.value)
  decode := decode

instance : Reversible (SignedLog width) where
  Opposite := SignedLog width
  oppositeWeight := inferInstance
  reverse := id
  restore := id

end SignedLog

end Transducer
