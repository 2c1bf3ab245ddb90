import Transducer.Weight.Basic

/-! Label strings: the sum of two strings is their longest common front or back, by side, and the
product is concatenation. Infinity is above all strings and the bad string is no weight. -/

namespace Transducer

abbrev Label := UInt32

inductive Side where
  | left
  | right
deriving DecidableEq, Repr

namespace Side

def opposite : Side → Side
  | left => right
  | right => left

end Side

/-- Strings of labels that are compared from the given side. -/
inductive LabelString (side : Side) where
  | labels (word : List Label)
  | infinity
  | bad
deriving DecidableEq, Repr

namespace LabelString

/-- The longest list that both lists begin with. -/
def commonFront : List Label → List Label → List Label
  | x :: first, y :: second => if x = y then x :: commonFront first second else []
  | _, _ => []

/-- The longest list that both lists end with. -/
def commonBack (first second : List Label) : List Label :=
  (commonFront first.reverse second.reverse).reverse

/-- What is left of a list after the given beginning. -/
def stripFront? : List Label → List Label → Option (List Label)
  | [], word => some word
  | _ :: _, [] => none
  | x :: front, y :: word => if x = y then stripFront? front word else none

/-- What is left of a list before the given end. -/
def stripBack? (back word : List Label) : Option (List Label) :=
  (stripFront? back.reverse word.reverse).map List.reverse

variable {side : Side}

def common (side : Side) (first second : List Label) : List Label :=
  match side with
  | .left => commonFront first second
  | .right => commonBack first second

def plus : LabelString side → LabelString side → LabelString side
  | bad, _ => bad
  | _, bad => bad
  | infinity, y => y
  | x, infinity => x
  | labels first, labels second => labels (common side first second)

def times : LabelString side → LabelString side → LabelString side
  | bad, _ => bad
  | _, bad => bad
  | infinity, _ => infinity
  | _, infinity => infinity
  | labels first, labels second => labels (first ++ second)

/-- The rest of a string after the divisor, on the side where strings are compared and only there. -/
def rest? (side : Side) : DivisionSide → List Label → List Label → Option (List Label)
  | .left, word, divisor => if side = .left then stripFront? divisor word else none
  | .right, word, divisor => if side = .right then stripBack? divisor word else none
  | .any, _, _ => none

def divide (division : DivisionSide) : LabelString side → LabelString side → LabelString side
  | bad, _ => bad
  | _, bad => bad
  | _, infinity => bad
  | infinity, labels _ => infinity
  | labels word, labels divisor =>
    match rest? side division word divisor with
    | some rest => labels rest
    | none => bad

def reverse : LabelString side → LabelString side.opposite
  | labels word => labels word.reverse
  | infinity => infinity
  | bad => bad

/-- The reversal back from the opposite side. -/
def restore : LabelString side.opposite → LabelString side
  | labels word => labels word.reverse
  | infinity => infinity
  | bad => bad

def typeName : Side → String
  | .left => "left_string"
  | .right => "right_string"

def properties : Side → Properties
  | .left => { leftSemiring := true, idempotent := true }
  | .right => { rightSemiring := true, idempotent := true }

def renderLabel (label : Label) : List Char := Numeral.digits label.toNat

/-- The texts of the labels with an underscore between neighbours. -/
def renderLabels : List Label → List Char
  | [] => []
  | [label] => renderLabel label
  | label :: rest => renderLabel label ++ '_' :: renderLabels rest

def render : LabelString side → List Char
  | labels [] => "Epsilon".toList
  | labels word => renderLabels word
  | infinity => "Infinity".toList
  | bad => "BadString".toList

/-- The parts between underscores, the first of which is given as far as read, backwards. -/
def partsFrom (current : List Char) : List Char → List (List Char)
  | [] => [current.reverse]
  | c :: rest => if c = '_' then current.reverse :: partsFrom [] rest else partsFrom (c :: current) rest

def parse (text : List Char) : Except WeightTextError (LabelString side) :=
  if text = "Infinity".toList then .ok infinity
  else if text = "BadString".toList then .ok bad
  else if text = "Epsilon".toList then .ok (labels [])
  else
    match (partsFrom [] text).mapM Numeral.readWord? with
    | some word => .ok (labels word)
    | none => .error (.invalid (typeName side) text)

/-- A length that says infinity and one that says bad, as four-byte words. -/
def infinityLength : Nat := 0xffffffff
def badLength : Nat := 0xfffffffe

/-- The greatest length that a string can be stored with. -/
def maxLength : Nat := 0x7fffffff

def encodeLabels (word : List Label) : Bytes := word.flatMap fun label => Bytes.ofWord 4 label.toNat

def encode : LabelString side → Except EncodeError Bytes
  | infinity => .ok (Bytes.ofWord 4 infinityLength)
  | bad => .ok (Bytes.ofWord 4 badLength)
  | labels word =>
    if word.length ≤ maxLength then .ok (Bytes.ofWord 4 word.length ++ encodeLabels word)
    else .error .tooLong

def decodeLabels : Nat → Decoder (List Label)
  | 0 => return []
  | count + 1 => do
    let label ← Decoder.word 4
    return UInt32.ofNat label :: (← decodeLabels count)

def decode : Decoder (LabelString side) := do
  let length ← Decoder.word 4
  if length = infinityLength then return infinity
  else if length = badLength then return bad
  else if length ≤ maxLength then return labels (← decodeLabels length)
  else
    let digits := String.ofList (Numeral.digits (2 ^ 32 - length))
    throw (.invalid ("invalid string weight length -" ++ digits))

instance : Weight (LabelString side) where
  zero := infinity
  one := labels []
  noWeight := bad
  plus := plus
  times := times
  divide := divide
  member w := w != bad
  equal x y := x == y
  approxEqual _ x y := x == y
  properties := properties side
  typeName := typeName side
  textArity := 1
  render _ := render
  parse _ := parse
  encode := encode
  decode := decode

instance : Reversible (LabelString side) where
  Opposite := LabelString side.opposite
  oppositeWeight := inferInstance
  reverse := reverse
  restore := restore

end LabelString

end Transducer
