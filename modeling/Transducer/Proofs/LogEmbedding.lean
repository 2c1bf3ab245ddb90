import Transducer.Proofs.NonMembers

/-! Log weights are the signed log weights without a minus sign. Taking them over keeps sums, products and quotients to
the last bit, since both types go through the same cases and hand the same numbers to the same operations. What these
operations answer does not matter, so they are left open here. -/

namespace Transducer

/-- The operations on numbers that log weights of one width are computed by. -/
structure Arithmetic (width : Width) where
  add : Floating width → Floating width → Floating width
  sub : Floating width → Floating width → Floating width
  widen : Floating width → Floating .double
  narrow : Floating .double → Floating width
  wideSub : Floating .double → Floating .double → Floating .double
  exp : Floating .double → Floating .double
  log1p : Floating .double → Floating .double

variable {width : Width}

namespace Arithmetic

/-- The operations that round their exact results once. -/
def rounding (width : Width) : Arithmetic width where
  add x y := x + y
  sub x y := x - y
  widen := Number.wide
  narrow := Floating.resize width
  wideSub x y := x - y
  exp := Floating.exp
  log1p := Floating.log1p

variable (arithmetic : Arithmetic width)

def logPlus (x y : Floating width) : Floating width :=
  if x.isPositiveInfinity then y
  else if y.isPositiveInfinity then x
  else
    let (low, high) := Number.ordered x y
    let distance := arithmetic.wideSub (arithmetic.widen low) (arithmetic.widen high)
    arithmetic.narrow (arithmetic.wideSub (arithmetic.widen low) (arithmetic.log1p (arithmetic.exp distance)))

def logMinus (x y : Floating width) : Floating width :=
  let distance := arithmetic.wideSub (arithmetic.widen x) (arithmetic.widen y)
  arithmetic.narrow (arithmetic.wideSub (arithmetic.widen x) (arithmetic.log1p (-arithmetic.exp distance)))

theorem logPlus_rounding : (rounding width).logPlus = Number.logPlus := by
  funext x y
  simp only [logPlus, Number.logPlus, Number.logExcess, rounding]

theorem logMinus_rounding : (rounding width).logMinus = Number.logMinus := by
  funext x y
  simp only [logMinus, Number.logMinus, rounding]

end Arithmetic

namespace Log

def plusBy (arithmetic : Arithmetic width) (x y : Log width) : Log width :=
  if !x.member || !y.member then noWeight else ⟨arithmetic.logPlus x.value y.value⟩

def timesBy (arithmetic : Arithmetic width) (x y : Log width) : Log width :=
  if !x.member || !y.member then noWeight
  else if x.value.isPositiveInfinity || y.value.isPositiveInfinity then ⟨.infinity⟩
  else ⟨arithmetic.add x.value y.value⟩

def divideBy (arithmetic : Arithmetic width) (x y : Log width) : Log width :=
  if !x.member || !y.member || y.value.isPositiveInfinity then noWeight
  else if x.value.isPositiveInfinity then ⟨.infinity⟩
  else ⟨arithmetic.sub x.value y.value⟩

theorem plusBy_rounding : plusBy (.rounding width) = plus := by
  funext x y
  rw [plusBy, Arithmetic.logPlus_rounding, plus]

theorem timesBy_rounding : timesBy (.rounding width) = times := rfl

theorem divideBy_rounding : divideBy (.rounding width) = divide := rfl

/-- The number without a sign as one that might have had one. -/
def signed (w : Log width) : SignedLog width := Convertible.convert w

end Log

namespace SignedLog

def plusBy (arithmetic : Arithmetic width) (x y : SignedLog width) : SignedLog width :=
  if !x.member || !y.member then noWeight
  else if x.value.isPositiveInfinity then y
  else if y.value.isPositiveInfinity then x
  else if x.negative = y.negative then make x.negative (arithmetic.logPlus x.value y.value)
  else if x.value.equal y.value then zero
  else if x.value.lt y.value then make x.negative (arithmetic.logMinus x.value y.value)
  else make y.negative (arithmetic.logMinus y.value x.value)

def timesBy (arithmetic : Arithmetic width) (x y : SignedLog width) : SignedLog width :=
  if !x.member || !y.member then noWeight
  else if x.value.isPositiveInfinity || y.value.isPositiveInfinity then zero
  else make (x.negative != y.negative) (arithmetic.add x.value y.value)

def divideBy (arithmetic : Arithmetic width) (x y : SignedLog width) : SignedLog width :=
  if !x.member || !y.member || y.value.isPositiveInfinity then noWeight
  else if x.value.isPositiveInfinity then zero
  else make (x.negative != y.negative) (arithmetic.sub x.value y.value)

theorem plusBy_rounding : plusBy (.rounding width) = plus := by
  funext x y
  rw [plusBy, Arithmetic.logPlus_rounding, Arithmetic.logMinus_rounding, plus]

theorem timesBy_rounding : timesBy (.rounding width) = times := rfl

theorem divideBy_rounding : divideBy (.rounding width) = divide := rfl

/-- The number without its sign, where it has none. -/
def unsigned (w : SignedLog width) : Log width := Convertible.convert w

end SignedLog

namespace Log

variable {arithmetic : Arithmetic width} {x y : Log width}

theorem member_signed (w : Log width) : w.signed.member = w.member := rfl

theorem value_signed (w : Log width) : w.signed.value = w.value := rfl

theorem negative_signed (w : Log width) : w.signed.negative = false := rfl

theorem signed_plusBy : (plusBy arithmetic x y).signed = x.signed.plusBy arithmetic y.signed := by
  unfold plusBy SignedLog.plusBy
  simp only [member_signed, value_signed, negative_signed, if_true]
  split
  next => rfl
  next =>
    unfold Arithmetic.logPlus
    split
    next => rfl
    next =>
      split
      next => rfl
      next => rfl

theorem signed_timesBy : (timesBy arithmetic x y).signed = x.signed.timesBy arithmetic y.signed := by
  unfold timesBy
  rw [apply_ite signed, apply_ite signed]
  rfl

theorem signed_divideBy : (divideBy arithmetic x y).signed = x.signed.divideBy arithmetic y.signed := by
  unfold divideBy
  rw [apply_ite signed, apply_ite signed]
  rfl

theorem unsigned_signed (w : Log width) : w.signed.unsigned = w := rfl

theorem isZero_signed (w : Log width) : Weight.isZero w.signed = Weight.isZero w := rfl

end Log

open Weight in
/-- Log weights lie within the signed log weights, with their zero and their one. Sums, products and quotients are the
same there, whatever the operations on numbers answer, and among them the ones that round once. Back to a log weight
goes what came from it, and of the signed log weights exactly those that are not negative. -/
theorem logs_embed (width : Width) :
    (∀ (arithmetic : Arithmetic width) (x y : Log width),
      (Log.plusBy arithmetic x y).signed = SignedLog.plusBy arithmetic x.signed y.signed ∧
      (Log.timesBy arithmetic x y).signed = SignedLog.timesBy arithmetic x.signed y.signed ∧
      (Log.divideBy arithmetic x y).signed = SignedLog.divideBy arithmetic x.signed y.signed) ∧
    (∀ x y : Log width, Log.signed (plus x y) = plus x.signed y.signed ∧
      Log.signed (times x y) = times x.signed y.signed ∧
      ∀ side, Log.signed (divide side x y) = divide side x.signed y.signed) ∧
    Log.signed (zero : Log width) = zero ∧ Log.signed (one : Log width) = one ∧
    (∀ x : Log width, member x.signed = member x ∧ isZero x.signed = isZero x ∧ x.signed.unsigned = x) ∧
    ∀ w : SignedLog width, member w.unsigned = (member w && !w.negative) := by
  have everywhere (arithmetic : Arithmetic width) (x y : Log width) :
      (Log.plusBy arithmetic x y).signed = SignedLog.plusBy arithmetic x.signed y.signed ∧
      (Log.timesBy arithmetic x y).signed = SignedLog.timesBy arithmetic x.signed y.signed ∧
      (Log.divideBy arithmetic x y).signed = SignedLog.divideBy arithmetic x.signed y.signed :=
    ⟨Log.signed_plusBy, Log.signed_timesBy, Log.signed_divideBy⟩
  refine ⟨everywhere, fun x y => ?_, rfl, rfl, fun x => ⟨x.member_signed, x.isZero_signed, x.unsigned_signed⟩,
    SignedLog.member_convert⟩
  obtain ⟨sum, product, quotient⟩ := everywhere (.rounding width) x y
  rw [Log.plusBy_rounding, SignedLog.plusBy_rounding] at sum
  rw [Log.timesBy_rounding, SignedLog.timesBy_rounding] at product
  rw [Log.divideBy_rounding, SignedLog.divideBy_rounding] at quotient
  exact ⟨sum, product, fun _ => quotient⟩

end Transducer
