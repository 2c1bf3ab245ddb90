import Transducer.Naturals

/-! Binary floating-point numbers of two widths. A number is a sign and a magnitude, the bits below
the sign bit read as a natural. Magnitudes of finite numbers grow with the numbers, so order is
order of integers, and every finite number is a whole multiple of the smallest positive one. -/

namespace Transducer

inductive Width where
  | single
  | double
deriving DecidableEq, Repr

namespace Width

/-- Bytes of the stored form. -/
def size : Width → Nat
  | single => 4
  | double => 8

/-- Significant bits of a normal number, the leading one included. -/
def precision : Width → Nat
  | single => 24
  | double => 53

/-- The smallest positive number is two to the power `-scale`. Values are counted in it as units. -/
def scale : Width → Nat
  | single => 149
  | double => 1074

/-- The magnitude of the infinities. Larger magnitudes are no numbers. -/
def infinity : Width → Nat
  | single => 0x7f800000
  | double => 0x7ff0000000000000

/-- The weight of the sign bit. -/
def signBit : Width → Nat
  | single => 0x80000000
  | double => 0x8000000000000000

/-- The leading significant bit of a normal number, which the stored form leaves out. -/
def leading (width : Width) : Nat := 2 ^ (width.precision - 1)

/-- The quiet pattern that stands for every result that is no number. -/
def quiet (width : Width) : Nat := width.infinity + 2 ^ (width.precision - 2)

theorem infinity_lt_signBit (width : Width) : width.infinity < width.signBit := by
  cases width <;> decide

theorem quiet_lt_signBit (width : Width) : width.quiet < width.signBit := by
  cases width <;> decide

theorem signBit_pos (width : Width) : 0 < width.signBit := by
  cases width <;> decide

/-- The value of a finite magnitude in units. Below the leading bit the two coincide. Above it each
further multiple of the leading bit doubles the distance between neighbours. -/
def units (width : Width) (magnitude : Nat) : Nat :=
  if magnitude < width.leading then magnitude
  else (width.leading + magnitude % width.leading) * 2 ^ (magnitude / width.leading - 1)

end Width

structure Floating (width : Width) where
  negative : Bool
  magnitude : Nat
  magnitude_lt : magnitude < width.signBit
deriving DecidableEq

namespace Floating

variable {width : Width}

def zero : Floating width := ⟨false, 0, width.signBit_pos⟩
def infinity : Floating width := ⟨false, width.infinity, width.infinity_lt_signBit⟩
def nan : Floating width := ⟨false, width.quiet, width.quiet_lt_signBit⟩

/-- The same magnitude under the other sign. -/
def neg (x : Floating width) : Floating width := { x with negative := !x.negative }

def isNaN (x : Floating width) : Bool := decide (width.infinity < x.magnitude)
def isInfinite (x : Floating width) : Bool := decide (x.magnitude = width.infinity)
def isFinite (x : Floating width) : Bool := decide (x.magnitude < width.infinity)

/-- The signed magnitude. It orders all numbers and gives both zeros the same place. -/
def rank (x : Floating width) : Int := if x.negative then -(x.magnitude : Int) else x.magnitude

/-- Comparisons with something that is no number fail, and the two zeros are equal. -/
def lt (x y : Floating width) : Bool := !x.isNaN && !y.isNaN && decide (x.rank < y.rank)
def le (x y : Floating width) : Bool := !x.isNaN && !y.isNaN && decide (x.rank ≤ y.rank)
def equal (x y : Floating width) : Bool := !x.isNaN && !y.isNaN && decide (x.rank = y.rank)

def isPositiveInfinity (x : Floating width) : Bool := x.isInfinite && !x.negative
def isNegativeInfinity (x : Floating width) : Bool := x.isInfinite && x.negative

/-- The value of a finite number in units of the smallest positive one. -/
def units (x : Floating width) : Int :=
  if x.negative then -(width.units x.magnitude : Int) else width.units x.magnitude

/-- The stored pattern as a natural. -/
def bits (x : Floating width) : Nat := (if x.negative then width.signBit else 0) + x.magnitude

/-- The number with this stored pattern. Bits above the sign bit are dropped. -/
def ofBits (pattern : Nat) : Floating width :=
  ⟨pattern / width.signBit % 2 == 1, pattern % width.signBit, Nat.mod_lt _ width.signBit_pos⟩

theorem ofBits_bits (x : Floating width) : ofBits x.bits = x := by
  obtain ⟨negative, magnitude, bound⟩ := x
  have pos := width.signBit_pos
  cases negative with
  | false => simp [ofBits, bits, Nat.div_eq_of_lt bound, Nat.mod_eq_of_lt bound]
  | true =>
    simp [ofBits, bits, Nat.add_div_left _ pos, Nat.div_eq_of_lt bound, Nat.mod_eq_of_lt bound]

end Floating

end Transducer
