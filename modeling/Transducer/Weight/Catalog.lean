import Transducer.Weight.Conversion
import Transducer.Weight.Random
import Transducer.Weight.Sum

/-! The weight types as data. Eleven of them have names that stored transducers use, and products of
any two can be formed on top. -/

namespace Transducer

inductive BuiltIn where
  | tropical (width : Width)
  | log (width : Width)
  | signedLog (width : Width)
  | minMax (width : Width)
  | boolean
  | labelString (side : Side)
deriving DecidableEq, Repr

namespace BuiltIn

@[reducible] def Carrier : BuiltIn → Type
  | tropical width => Tropical width
  | log width => Log width
  | signedLog width => SignedLog width
  | minMax width => MinMax width
  | boolean => Boolean
  | labelString side => LabelString side

instance weight : (builtIn : BuiltIn) → Weight builtIn.Carrier
  | tropical _ => inferInstanceAs (Weight (Tropical _))
  | log _ => inferInstanceAs (Weight (Log _))
  | signedLog _ => inferInstanceAs (Weight (SignedLog _))
  | minMax _ => inferInstanceAs (Weight (MinMax _))
  | boolean => inferInstanceAs (Weight Boolean)
  | labelString _ => inferInstanceAs (Weight (LabelString _))

instance reversible : (builtIn : BuiltIn) → Reversible builtIn.Carrier
  | tropical _ => inferInstanceAs (Reversible (Tropical _))
  | log _ => inferInstanceAs (Reversible (Log _))
  | signedLog _ => inferInstanceAs (Reversible (SignedLog _))
  | minMax _ => inferInstanceAs (Reversible (MinMax _))
  | boolean => inferInstanceAs (Reversible Boolean)
  | labelString _ => inferInstanceAs (Reversible (LabelString _))

instance accumulate : (builtIn : BuiltIn) → Accumulate builtIn.Carrier
  | tropical _ => inferInstanceAs (Accumulate (Tropical _))
  | log _ => inferInstanceAs (Accumulate (Log _))
  | signedLog _ => inferInstanceAs (Accumulate (SignedLog _))
  | minMax _ => inferInstanceAs (Accumulate (MinMax _))
  | boolean => inferInstanceAs (Accumulate Boolean)
  | labelString _ => inferInstanceAs (Accumulate (LabelString _))

instance random : (builtIn : BuiltIn) → RandomWeight builtIn.Carrier
  | tropical _ => inferInstanceAs (RandomWeight (Tropical _))
  | log _ => inferInstanceAs (RandomWeight (Log _))
  | signedLog _ => inferInstanceAs (RandomWeight (SignedLog _))
  | minMax _ => inferInstanceAs (RandomWeight (MinMax _))
  | boolean => inferInstanceAs (RandomWeight Boolean)
  | labelString _ => inferInstanceAs (RandomWeight (LabelString _))

def all : List BuiltIn :=
  [tropical .single, tropical .double, log .single, log .double, signedLog .single, signedLog .double,
   minMax .single, minMax .double, boolean, labelString .left, labelString .right]

def name (builtIn : BuiltIn) : String := Weight.typeName builtIn.Carrier

def ofName? (name : String) : Option BuiltIn := all.find? fun builtIn => builtIn.name == name

end BuiltIn

inductive WeightType where
  | builtIn (type : BuiltIn)
  | product (first second : WeightType)
deriving DecidableEq, Repr

namespace WeightType

@[reducible] def Carrier : WeightType → Type
  | builtIn type => type.Carrier
  | product first second => Product first.Carrier second.Carrier

instance weight : (type : WeightType) → Weight type.Carrier
  | builtIn type => type.weight
  | product first second =>
    have := weight first
    have := weight second
    inferInstanceAs (Weight (Product first.Carrier second.Carrier))

instance reversible : (type : WeightType) → Reversible type.Carrier
  | builtIn type => type.reversible
  | product first second =>
    have := reversible first
    have := reversible second
    inferInstanceAs (Reversible (Product first.Carrier second.Carrier))

instance accumulate : (type : WeightType) → Accumulate type.Carrier
  | builtIn type => type.accumulate
  | product first second => inferInstanceAs (Accumulate (Product first.Carrier second.Carrier))

instance random : (type : WeightType) → RandomWeight type.Carrier
  | builtIn type => type.random
  | product first second =>
    have := random first
    have := random second
    inferInstanceAs (RandomWeight (Product first.Carrier second.Carrier))

/-- The conversion from one type into another, where there is one. -/
def convert? (source target : WeightType) : Option (source.Carrier → target.Carrier) :=
  if same : source = target then some (same ▸ id)
  else
    match source, target with
    | builtIn (.tropical v), builtIn (.log w) => between v w Tropical Log
    | builtIn (.log v), builtIn (.tropical w) => between v w Log Tropical
    | builtIn (.log v), builtIn (.signedLog w) => between v w Log SignedLog
    | builtIn (.signedLog v), builtIn (.log w) => between v w SignedLog Log
    | _, _ => none
where
  /-- Numbers of different widths are not converted. -/
  between (v w : Width) (V W : Width → Type) [∀ width, Convertible (V width) (W width)] :
      Option (V v → W w) :=
    if same : v = w then some (same ▸ Convertible.convert) else none

end WeightType

end Transducer
