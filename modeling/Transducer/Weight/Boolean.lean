import Transducer.Weight.Basic

/-! Boolean weights: disjunction and conjunction, with a third value that is no weight. -/

namespace Transducer

structure Boolean where
  value? : Option Bool
deriving DecidableEq, Repr

namespace Boolean

def zero : Boolean := ⟨some false⟩
def one : Boolean := ⟨some true⟩
def noWeight : Boolean := ⟨none⟩

def plus : Boolean → Boolean → Boolean
  | ⟨some x⟩, ⟨some y⟩ => ⟨some (x || y)⟩
  | _, _ => noWeight

def times : Boolean → Boolean → Boolean
  | ⟨some x⟩, ⟨some y⟩ => ⟨some (x && y)⟩
  | _, _ => noWeight

/-- Only the true weight divides. -/
def divide : Boolean → Boolean → Boolean
  | ⟨some x⟩, ⟨some true⟩ => ⟨some x⟩
  | _, _ => noWeight

def render : Boolean → List Char
  | ⟨some true⟩ => ['1']
  | ⟨some false⟩ => ['0']
  | ⟨none⟩ => "BadBoolean".toList

def parse (text : List Char) : Except WeightTextError Boolean :=
  if text = ['1'] ∨ text = "true".toList then .ok one
  else if text = ['0'] ∨ text = "false".toList then .ok zero
  else if text = "BadBoolean".toList then .ok noWeight
  else .error (.invalid "boolean" text)

def byte : Boolean → UInt8
  | ⟨some true⟩ => 1
  | ⟨some false⟩ => 0
  | ⟨none⟩ => 0xff

def decode : Decoder Boolean := do
  match ← Decoder.word 1 with
  | 0 => return zero
  | 1 => return one
  | 0xff => return noWeight
  | other =>
    let digits := Numeral.hexByte (UInt8.ofNat other)
    throw (.invalid ("invalid boolean weight byte 0x" ++ String.ofList digits))

instance : Weight Boolean where
  zero := zero
  one := one
  noWeight := noWeight
  plus := plus
  times := times
  divide _ := divide
  member w := w.value?.isSome
  equal x y := x == y
  approxEqual _ x y := x == y
  properties := ⟨true, true, true, true, true⟩
  typeName := "boolean"
  textArity := 1
  render _ := render
  parse _ := parse
  encode w := .ok [w.byte]
  decode := decode

instance : Reversible Boolean where
  Opposite := Boolean
  oppositeWeight := inferInstance
  reverse := id
  restore := id

end Boolean

end Transducer
