import Transducer.Floating.Basic

/-! Rounding to nearest, ties to even. Every operation on floating-point numbers is an exact quotient
of naturals rounded once, so this is the only place where a value is given up. -/

namespace Transducer

/-- The quotient rounded to the nearest natural, a tie to the even one. -/
def roundHalfEven (numerator denominator : Nat) : Nat :=
  let quotient := numerator / denominator
  let remainder := numerator % denominator
  if 2 * remainder < denominator then quotient
  else if denominator < 2 * remainder then quotient + 1
  else quotient + quotient % 2

namespace Width

/-- The magnitude nearest to a quotient of units. Rounding up out of a binade lands on the first
magnitude of the next one, and past the largest finite magnitude on infinity. -/
def nearest (width : Width) (numerator denominator : Nat) : Nat :=
  let shift := (numerator / denominator).log2 + 1 - width.precision
  min width.infinity (shift * width.leading + roundHalfEven numerator (denominator * 2 ^ shift))

theorem nearest_lt_signBit (width : Width) (numerator denominator : Nat) :
    width.nearest numerator denominator < width.signBit :=
  Nat.lt_of_le_of_lt (Nat.min_le_left ..) width.infinity_lt_signBit

end Width

namespace Floating

variable {width : Width}

/-- The number nearest to a quotient of units under the given sign. -/
def ofQuotient (negative : Bool) (numerator denominator : Nat) : Floating width :=
  ⟨negative, width.nearest numerator denominator, width.nearest_lt_signBit numerator denominator⟩

theorem isNaN_ofQuotient (negative : Bool) (numerator denominator : Nat) :
    (ofQuotient negative numerator denominator : Floating width).isNaN = false := by
  exact decide_eq_false (Nat.not_lt.mpr (Nat.min_le_left ..))

/-- The number nearest to a whole multiple of the unit. Zero is positive. -/
def ofUnits (value : Int) : Floating width := ofQuotient (decide (value < 0)) value.natAbs 1

def ofInt (value : Int) : Floating width := ofUnits (value * 2 ^ width.scale)

/-- The same value in another width, rounded once if it does not fit. -/
def resize (target : Width) (x : Floating width) : Floating target :=
  if x.isNaN then nan
  else if x.isInfinite then { (infinity : Floating target) with negative := x.negative }
  else ofQuotient x.negative (width.units x.magnitude * 2 ^ target.scale) (2 ^ width.scale)

/-- The exact sum rounded once. A sum that vanishes is positive unless both zeros are negative. -/
def add (x y : Floating width) : Floating width :=
  if x.isNaN || y.isNaN then nan
  else if x.isInfinite then if y.isInfinite && x.negative != y.negative then nan else x
  else if y.isInfinite then y
  else
    let total := x.units + y.units
    if total = 0 then { (zero : Floating width) with negative := x.negative && y.negative }
    else ofUnits total

def sub (x y : Floating width) : Floating width := add x y.neg

instance : Neg (Floating width) := ⟨neg⟩
instance : Add (Floating width) := ⟨add⟩
instance : Sub (Floating width) := ⟨sub⟩

end Floating

end Transducer
