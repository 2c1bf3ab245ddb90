import Transducer.Floating.Rounding

/-! The exponential and the logarithm of one plus a number. Both sum a series of naturals in fixed
point, with enough bits below the last one of the result, and round the sum once. The two zeros have
the same units, so they cannot be told apart by the series. -/

namespace Transducer

namespace Series

/-- Bits below the point for sums that are at least about one. -/
def workingBits : Nat := 192

/-- The terms `power / index`, `power * square / (index + 2)` and so on, until they vanish. -/
def artanhTerms (bits square : Nat) : Nat → Nat → Nat → Nat
  | 0, _, _ => 0
  | terms + 1, power, index =>
    if power = 0 then 0
    else power / index + artanhTerms bits square terms ((power * square) >>> bits) (index + 2)

/-- The inverse hyperbolic tangent of `value` for values up to a third, in units of `2 ^ -bits`. -/
def artanh (bits value : Nat) : Nat :=
  artanhTerms bits ((value * value) >>> bits) bits value 1

/-- The natural logarithm of two, which is twice the inverse hyperbolic tangent of a third. -/
def logTwo (bits : Nat) : Nat := 2 * artanh bits (2 ^ bits / 3)

/-- The terms of the exponential series from `power`, the term before number `index`. -/
def expTerms (bits value : Nat) : Nat → Nat → Nat → Nat
  | 0, _, _ => 0
  | terms + 1, power, index =>
    if power = 0 then 0
    else power + expTerms bits value terms (((power * value) >>> bits) / index) (index + 1)

/-- The exponential of `value` for values below one, in units of `2 ^ -bits`. -/
def exp (bits value : Nat) : Nat := 2 ^ bits + expTerms bits value bits value 2

end Series

namespace Floating

variable {width : Width}

/-- The exponential. The argument is a whole number of times the logarithm of two plus a rest, and a
negative argument gives the reciprocal, which is never above one. -/
def exp (x : Floating width) : Floating width :=
  if x.isNaN then nan
  else if x.isInfinite then if x.negative then zero else infinity
  else
    let bits := Series.workingBits
    let logTwo := Series.logTwo bits
    let argument := width.units x.magnitude * 2 ^ bits / 2 ^ width.scale
    let doublings := argument / logTwo
    if 2 * width.scale < doublings then if x.negative then zero else infinity
    else
      let rest := Series.exp bits (argument % logTwo)
      if x.negative then ofQuotient false (2 ^ width.scale * 2 ^ bits) (rest * 2 ^ doublings)
      else ofQuotient false (rest * 2 ^ doublings * 2 ^ width.scale) (2 ^ bits)

/-- The logarithm of one plus the argument. Between minus a half and one it is summed directly, with
as many further bits as the argument is small, and elsewhere after a power of two is split off. -/
def log1p (x : Floating width) : Floating width :=
  if x.isNaN then nan
  else if x.isInfinite then if x.negative then nan else x
  else
    let value := x.units
    let one : Nat := 2 ^ width.scale
    if value = 0 then x
    else if value + one < 0 then nan
    else if value + one = 0 then infinity.neg
    else
      let shifted := (value + one).toNat
      if one ≤ 2 * shifted ∧ shifted ≤ 2 * one then
        let bits := Series.workingBits + width.scale - value.natAbs.log2
        let ratio := value.natAbs * 2 ^ bits / (one + shifted)
        ofQuotient (decide (value < 0)) (2 * Series.artanh bits ratio * one) (2 ^ bits)
      else
        let bits := Series.workingBits
        let power := 2 ^ shifted.log2
        let rest := 2 * Series.artanh bits ((shifted - power) * 2 ^ bits / (shifted + power))
        let halvings := width.scale - shifted.log2
        let doublings := shifted.log2 - width.scale
        if value < 0 then ofQuotient true ((halvings * Series.logTwo bits - rest) * one) (2 ^ bits)
        else ofQuotient false ((doublings * Series.logTwo bits + rest) * one) (2 ^ bits)

end Floating

end Transducer
