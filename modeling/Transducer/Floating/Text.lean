import Transducer.Floating.Shortest
import Transducer.Text.Numeral

/-! Floating-point numbers as text. Written numbers are positional, with the fewest digits that read
back and never an exponent. Read numbers may have one, and are rounded once. -/

namespace Transducer

namespace Decimal

/-- Digits with the point so many places from the right, and no zeros behind it at the end. -/
def withPoint (digits : List Char) (places : Nat) : List Char :=
  let padded := List.replicate (places + 1 - digits.length) '0' ++ digits
  let whole := padded.take (padded.length - places)
  let fraction := (padded.drop (padded.length - places)).reverse.dropWhile (· == '0') |>.reverse
  if fraction = [] then whole else whole ++ '.' :: fraction

def render (decimal : Decimal) : List Char :=
  let digits := Numeral.digits decimal.digits
  if 0 ≤ decimal.exponent then digits ++ List.replicate decimal.exponent.toNat '0'
  else withPoint digits (-decimal.exponent).toNat

end Decimal

namespace Floating

variable {width : Width}

/-- A finite number in full, with a minus sign also on the negative zero. -/
def renderFinite (x : Floating width) : List Char :=
  let unsigned := if x.magnitude = 0 then ['0'] else (width.shortest x.magnitude).render
  if x.negative then '-' :: unsigned else unsigned

/-- The text of any number, given the names for the values that have no digits. -/
def renderWith (infinityName nanName : String) (x : Floating width) : List Char :=
  if x.isNaN then nanName.toList
  else if x.isInfinite then
    if x.negative then '-' :: infinityName.toList else infinityName.toList
  else x.renderFinite

/-- The number nearest to `digits * 10 ^ exponent`. Values whose leading digit is more than 400 places
from the point are beyond both ends of either width. -/
def ofDecimal (negative : Bool) (decimal : Decimal) : Floating width :=
  let leading := (Numeral.digits decimal.digits).length + decimal.exponent
  if decimal.digits = 0 ∨ leading < -400 then { (zero : Floating width) with negative }
  else if 400 < leading then { (infinity : Floating width) with negative }
  else
    let (up, down) := tenPower decimal.exponent
    ofQuotient negative (decimal.digits * down * 2 ^ width.scale) up

/-- The sign in front of a numeral and what follows it. -/
def splitSign : List Char → Bool × List Char
  | '-' :: rest => (true, rest)
  | '+' :: rest => (false, rest)
  | text => (false, text)

/-- The exponent after its mark, or zero where there is no mark. -/
def readExponent? : List Char → Option Int
  | [] => some 0
  | mark :: rest =>
    if mark = 'e' ∨ mark = 'E' then
      let (negative, digits) := splitSign rest
      (Numeral.value? digits).map fun value => if negative then -(value : Int) else value
    else none

/-- The digits after a point in front, and what follows them. -/
def splitFraction : List Char → List Char × List Char
  | '.' :: rest => Numeral.splitDigits rest
  | text => ([], text)

/-- Digits with an optional point among them, and an optional exponent. -/
def readDecimal? (text : List Char) : Option Decimal := do
  let (whole, rest) := Numeral.splitDigits text
  let (fraction, tail) := splitFraction rest
  let value ← Numeral.value? (whole ++ fraction)
  let exponent ← readExponent? tail
  return ⟨value, exponent - fraction.length⟩

/-- A sign, then a decimal or one of the names for infinity and for no number in any case. -/
def read? (text : List Char) : Option (Floating width) :=
  let (negative, unsigned) := splitSign text
  let name := unsigned.map Char.toLower
  if name = "inf".toList ∨ name = "infinity".toList then some { (infinity : Floating width) with negative }
  else if name = "nan".toList then some { (nan : Floating width) with negative }
  else (readDecimal? unsigned).map (ofDecimal negative)

end Floating

end Transducer
