import Transducer.Floating.Rounding

/-! The shortest decimal that reads back to a floating-point number. The values that round to a number
lie between the midpoints to its two neighbours, and the midpoints themselves belong to it when its
magnitude is even. The digit count grows until a point of that decimal grid lies in the interval. -/

namespace Transducer

/-- The value `digits * 10 ^ exponent`. -/
structure Decimal where
  digits : Nat
  exponent : Int
deriving DecidableEq, Repr

/-- A factor to multiply a numerator with and one for its denominator, together `10 ^ -exponent`. -/
def tenPower (exponent : Int) : Nat × Nat := (10 ^ (-exponent).toNat, 10 ^ exponent.toNat)

namespace Width

/-- Decimal places at least of the value: the least power of ten above it is this or a little more. -/
def estimatedPlaces (width : Width) (value : Nat) : Int :=
  ((value.log2 : Int) - width.scale) * 30103 / 100000

/-- Whether the value in units is below a power of ten. -/
def belowTenPower (width : Width) (value : Nat) (exponent : Int) : Bool :=
  let (up, down) := tenPower exponent
  decide (value * up < 2 ^ width.scale * down)

/-- The first exponent from an estimate on whose power of ten is above the value. -/
def placesFrom (width : Width) (value : Nat) : Nat → Int → Int
  | 0, exponent => exponent
  | tries + 1, exponent =>
    if width.belowTenPower value exponent then exponent
    else placesFrom width value tries (exponent + 1)

def places (width : Width) (value : Nat) : Int :=
  width.placesFrom value 3 (width.estimatedPlaces value)

/-- Whether a decimal lies among the values that round to the magnitude. -/
def readsBack (width : Width) (magnitude : Nat) (decimal : Decimal) : Bool :=
  let value := width.units magnitude
  let low := width.units (magnitude - 1) + value
  let high := value + width.units (magnitude + 1)
  let (up, down) := tenPower decimal.exponent
  let twice := 2 * decimal.digits * 2 ^ width.scale * down
  if magnitude % 2 = 0 then decide (low * up ≤ twice ∧ twice ≤ high * up)
  else decide (low * up < twice ∧ twice < high * up)

/-- The neighbour of the value on a decimal grid that reads back. Of two the nearer is taken, and on
a tie the upper one. -/
def onGrid (width : Width) (magnitude : Nat) (exponent : Int) : Option Decimal :=
  let (up, down) := tenPower exponent
  let numerator := width.units magnitude * up
  let denominator := 2 ^ width.scale * down
  let below : Decimal := ⟨numerator / denominator, exponent⟩
  let above : Decimal := ⟨numerator / denominator + 1, exponent⟩
  match width.readsBack magnitude below, width.readsBack magnitude above with
  | true, true =>
    if 2 * numerator < (below.digits + above.digits) * denominator then some below else some above
  | true, false => some below
  | false, true => some above
  | false, false => none

/-- The shortest decimal of a finite magnitude other than zero. The exact value stands in should no
grid up to the digits of the width do. -/
def shortest (width : Width) (magnitude : Nat) : Decimal :=
  let leading := width.places (width.units magnitude)
  match (List.range 17).findSome? fun (count : Nat) => width.onGrid magnitude (leading - 1 - count) with
  | some decimal => decimal
  | none => ⟨width.units magnitude * 5 ^ width.scale, -width.scale⟩

end Width

end Transducer
