import Transducer.Weight.Basic

/-! Pairs of weights with componentwise operations. A pair is a member if both components are. -/

namespace Transducer

structure Product (V W : Type) where
  first : V
  second : W
deriving DecidableEq, Repr

namespace Product

variable {V W : Type} [Weight V] [Weight W]

open Weight in
instance : Weight (Product V W) where
  zero := ⟨zero, zero⟩
  one := ⟨one, one⟩
  noWeight := ⟨noWeight, noWeight⟩
  plus x y := ⟨plus x.first y.first, plus x.second y.second⟩
  times x y := ⟨times x.first y.first, times x.second y.second⟩
  divide side x y := ⟨divide side x.first y.first, divide side x.second y.second⟩
  member w := member w.first && member w.second
  equal x y := equal x.first y.first && equal x.second y.second
  approxEqual delta x y := approxEqual delta x.first y.first && approxEqual delta x.second y.second
  properties := { (properties V).both (properties W) with path := false }
  typeName := typeName V ++ "_X_" ++ typeName W
  textArity := textArity V + textArity W
  render format w := format.join (render format w.first) (render format w.second)
  parse format text := do
    let (left, right) ← format.split text (textArity V)
    return ⟨← parse format left, ← parse format right⟩
  encode w := do return (← encode w.first) ++ (← encode w.second)
  decode := do
    let first ← decode
    let second ← decode
    return ⟨first, second⟩

instance [Reversible V] [Reversible W] : Reversible (Product V W) where
  Opposite := Product (Reversible.Opposite V) (Reversible.Opposite W)
  oppositeWeight := inferInstance
  reverse w := ⟨Reversible.reverse w.first, Reversible.reverse w.second⟩
  restore w := ⟨Reversible.restore w.first, Reversible.restore w.second⟩

end Product

end Transducer
