import Transducer.Weight.SignedLog
import Transducer.Weight.Tropical

/-! Conversions between weight types. Tropical and log weights are both negative logarithms and share
their values. A signed log weight is a log weight only if it is not negative. -/

namespace Transducer

class Convertible (V W : Type) where
  convert : V → W

instance {W : Type} : Convertible W W := ⟨id⟩

variable {width : Width}

instance : Convertible (Tropical width) (Log width) := ⟨fun w => ⟨w.value⟩⟩
instance : Convertible (Log width) (Tropical width) := ⟨fun w => ⟨w.value⟩⟩
instance : Convertible (Log width) (SignedLog width) := ⟨fun w => .make false w.value⟩

instance : Convertible (SignedLog width) (Log width) :=
  ⟨fun w => if w.negative then .noWeight else ⟨w.value⟩⟩

end Transducer
