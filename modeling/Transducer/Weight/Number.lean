import Transducer.Floating.Elementary
import Transducer.Floating.Text
import Transducer.Weight.Basic

/-! What the weight types over floating-point numbers share: text, bytes, tolerant comparison and sums
of negative logarithms. Logarithms are computed in the wider format whatever the type's own. -/

namespace Transducer.Number

variable {width : Width}

/-- What is added to a type's name when it holds the wider numbers. -/
def suffix : Width → String
  | .single => ""
  | .double => "64"

def render (x : Floating width) : List Char := x.renderWith "Infinity" "BadNumber"

def parse (text : List Char) : Option (Floating width) :=
  if text = "BadNumber".toList then some .nan else Floating.read? text

def parseAs (typeName : String) (text : List Char) : Except WeightTextError (Floating width) :=
  match parse text with
  | some x => .ok x
  | none => .error (.invalid typeName text)

def encode (x : Floating width) : Bytes := Bytes.ofWord width.size x.bits

def decode : Decoder (Floating width) := do return Floating.ofBits (← Decoder.word width.size)

def wide (x : Floating width) : Floating .double := x.resize .double

def approxEqual (delta : Floating .single) (x y : Floating width) : Bool :=
  Floating.le (wide x) (wide y + wide delta) && Floating.le (wide y) (wide x + wide delta)

/-- Neither a number nor the negative infinity counts as a negative logarithm. -/
def isLog (x : Floating width) : Bool := !x.isNaN && !x.isNegativeInfinity

/-- The smaller of two first. -/
def ordered (x y : Floating width) : Floating width × Floating width :=
  if x.le y then (x, y) else (y, x)

/-- What the sum of two powers has over the greater one, as a logarithm. -/
def logExcess (low high : Floating width) : Floating .double := (wide low - wide high).exp.log1p

/-- The negative logarithm of the sum of `exp (-x)` and `exp (-y)`. -/
def logPlus (x y : Floating width) : Floating width :=
  if x.isPositiveInfinity then y
  else if y.isPositiveInfinity then x
  else
    let (low, high) := ordered x y
    (wide low - logExcess low high).resize width

/-- The negative logarithm of the difference of `exp (-x)` and `exp (-y)`, for the smaller `x`. -/
def logMinus (x y : Floating width) : Floating width :=
  (wide x - (-(wide x - wide y).exp).log1p).resize width

end Transducer.Number
