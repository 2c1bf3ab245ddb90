/-! Powers and sums of whole numbers are those of the core library. A library of algebra has its own, and the
definitions here are the same whether one is imported or not. -/

namespace Transducer

instance (priority := high) naturalPower : Pow Nat Nat := instPowNat
instance (priority := high) integerPower : Pow Int Nat := instPowNat
instance (priority := high) naturalZero : Zero Nat := Zero.ofOfNat0

attribute [default_instance 20000] naturalPower

end Transducer
