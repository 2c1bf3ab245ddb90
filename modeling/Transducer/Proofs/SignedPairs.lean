import Transducer.Proofs.LogEmbedding

/-! Signed logarithms as plain pairs. Signed log weights are stored so that a zero with a minus sign cannot be written
down. Here any sign may stand beside any number, and the operations go through the same cases with the same numbers.
Only a new pair looks at its number. Still no pair that can be computed is a zero with a minus sign, and the pairs that
can be computed are the signed log weights. -/

namespace Transducer

/-- A sign beside a number, with nothing said about the two. -/
structure SignedPair (width : Width) where
  negative : Bool
  value : Floating width

variable {width : Width}

namespace SignedPair

/-- The one place where the minus sign of a zero is dropped. -/
def new (negative : Bool) (value : Floating width) : SignedPair width :=
  ⟨negative && !value.isPositiveInfinity, value⟩

def zero : SignedPair width := new false .infinity
def noWeight : SignedPair width := new false .nan

def member (w : SignedPair width) : Bool := Number.isLog w.value

def negate (w : SignedPair width) : SignedPair width := new (!w.negative) w.value

variable (arithmetic : Arithmetic width)

def plus (x y : SignedPair width) : SignedPair width :=
  if !x.member || !y.member then noWeight
  else if x.value.isPositiveInfinity then y
  else if y.value.isPositiveInfinity then x
  else if x.negative = y.negative then new x.negative (arithmetic.logPlus x.value y.value)
  else if x.value.equal y.value then zero
  else if x.value.lt y.value then new x.negative (arithmetic.logMinus x.value y.value)
  else new y.negative (arithmetic.logMinus y.value x.value)

def minus (x y : SignedPair width) : SignedPair width := plus arithmetic x y.negate

def times (x y : SignedPair width) : SignedPair width :=
  if !x.member || !y.member then noWeight
  else if x.value.isPositiveInfinity || y.value.isPositiveInfinity then zero
  else new (x.negative != y.negative) (arithmetic.add x.value y.value)

def divide (x y : SignedPair width) : SignedPair width :=
  if !x.member || !y.member || y.value.isPositiveInfinity then noWeight
  else if x.value.isPositiveInfinity then zero
  else new (x.negative != y.negative) (arithmetic.sub x.value y.value)

def ofLog (w : Log width) : SignedPair width := new false w.value

def parse (format : TextFormat) (text : List Char) : Except WeightTextError (SignedPair width) := do
  let (sign, value) ← format.split text 1
  match SignedLog.readSign? sign, Number.parse value with
  | some negative, some value => return new negative value
  | _, _ => throw (.invalid (SignedLog.typeName width) text)

def decode : Decoder (SignedPair width) := do
  let sign : Floating width ← Number.decode
  let value ← Number.decode
  if sign.equal (SignedLog.signNumber false) then return new false value
  else if sign.equal (SignedLog.signNumber true) then return new true value
  else
    let text := (Number.wide sign).renderWith "inf" "NaN"
    throw (.invalid ("invalid signed log weight sign " ++ String.ofList text))

/-- What a program can come by, whatever the operations on numbers answer. -/
inductive Computed (arithmetic : Arithmetic width) : SignedPair width → Prop
  | new (negative : Bool) (value : Floating width) : Computed arithmetic (new negative value)
  | negate {w : SignedPair width} : Computed arithmetic w → Computed arithmetic w.negate
  | plus {x y : SignedPair width} :
    Computed arithmetic x → Computed arithmetic y → Computed arithmetic (plus arithmetic x y)
  | minus {x y : SignedPair width} :
    Computed arithmetic x → Computed arithmetic y → Computed arithmetic (minus arithmetic x y)
  | times {x y : SignedPair width} :
    Computed arithmetic x → Computed arithmetic y → Computed arithmetic (times arithmetic x y)
  | divide {x y : SignedPair width} :
    Computed arithmetic x → Computed arithmetic y → Computed arithmetic (divide arithmetic x y)
  | ofLog (w : Log width) : Computed arithmetic (ofLog w)
  | parse {format : TextFormat} {text : List Char} {w : SignedPair width} :
    parse format text = .ok w → Computed arithmetic w
  | decode {input rest : Bytes} {w : SignedPair width} : decode input = .ok (w, rest) → Computed arithmetic w

end SignedPair

namespace SignedLog

variable {arithmetic : Arithmetic width} {x y : SignedLog width}

def minusBy (arithmetic : Arithmetic width) (x y : SignedLog width) : SignedLog width := plusBy arithmetic x y.negate

theorem minusBy_rounding : minusBy (.rounding width) = minus := by
  funext x y
  rw [minusBy, plusBy_rounding, minus]

theorem make_self (w : SignedLog width) : make w.negative w.value = w := make_eq_iff.mpr (.inr rfl)

def pair (w : SignedLog width) : SignedPair width := ⟨w.negative, w.value⟩

theorem pair_make (negative : Bool) (value : Floating width) :
    (make negative value).pair = SignedPair.new negative value := rfl

theorem pair_negate (w : SignedLog width) : w.negate.pair = w.pair.negate := rfl

theorem pair_plusBy : (plusBy arithmetic x y).pair = x.pair.plus arithmetic y.pair := by
  unfold plusBy SignedPair.plus
  simp only [apply_ite pair]
  rfl

theorem pair_minusBy : (minusBy arithmetic x y).pair = x.pair.minus arithmetic y.pair := pair_plusBy

theorem pair_timesBy : (timesBy arithmetic x y).pair = x.pair.times arithmetic y.pair := by
  unfold timesBy SignedPair.times
  simp only [apply_ite pair]
  rfl

theorem pair_divideBy : (divideBy arithmetic x y).pair = x.pair.divide arithmetic y.pair := by
  unfold divideBy SignedPair.divide
  simp only [apply_ite pair]
  rfl

theorem pair_signed (w : Log width) : w.signed.pair = SignedPair.ofLog w := rfl

theorem pair_parse (format : TextFormat) (text : List Char) :
    pair <$> (parse format text : Except WeightTextError (SignedLog width)) = SignedPair.parse format text := by
  unfold parse SignedPair.parse
  rw [map_bind]
  congr 1
  funext parts
  obtain ⟨sign, value⟩ := parts
  dsimp only
  cases readSign? sign with
  | none => rfl
  | some negative => cases (Number.parse value : Option (Floating width)) <;> rfl

theorem pair_decode : pair <$> (decode : Decoder (SignedLog width)) = SignedPair.decode := by
  unfold decode SignedPair.decode
  simp only [map_bind, apply_ite (pair <$> ·), map_pure]
  rfl

end SignedLog

namespace SignedPair

/-- The pairs that can be computed are those of the signed log weights. -/
theorem computed_iff {arithmetic : Arithmetic width} {w : SignedPair width} :
    w.Computed arithmetic ↔ ∃ v : SignedLog width, v.pair = w := by
  constructor
  · intro computed
    induction computed with
    | new negative value => exact ⟨.make negative value, rfl⟩
    | ofLog w => exact ⟨w.signed, rfl⟩
    | negate _ ih =>
      obtain ⟨v, rfl⟩ := ih
      exact ⟨v.negate, rfl⟩
    | plus _ _ ihX ihY =>
      obtain ⟨x, rfl⟩ := ihX
      obtain ⟨y, rfl⟩ := ihY
      exact ⟨_, SignedLog.pair_plusBy⟩
    | minus _ _ ihX ihY =>
      obtain ⟨x, rfl⟩ := ihX
      obtain ⟨y, rfl⟩ := ihY
      exact ⟨_, SignedLog.pair_minusBy⟩
    | times _ _ ihX ihY =>
      obtain ⟨x, rfl⟩ := ihX
      obtain ⟨y, rfl⟩ := ihY
      exact ⟨_, SignedLog.pair_timesBy⟩
    | divide _ _ ihX ihY =>
      obtain ⟨x, rfl⟩ := ihX
      obtain ⟨y, rfl⟩ := ihY
      exact ⟨_, SignedLog.pair_divideBy⟩
    | @parse format text w read =>
      rw [← SignedLog.pair_parse] at read
      cases parsed : (SignedLog.parse format text : Except WeightTextError (SignedLog width)) with
      | error => simp [parsed] at read
      | ok v => exact ⟨v, by simpa [parsed] using read⟩
    | @decode input rest w read =>
      rw [← SignedLog.pair_decode] at read
      obtain ⟨v, -, same⟩ := Parser.map_ok.mp read
      exact ⟨v, same⟩
  · intro given
    obtain ⟨v, rfl⟩ := given
    rw [← v.make_self]
    exact .new v.negative v.value

theorem Computed.zero_positive {arithmetic : Arithmetic width} {w : SignedPair width} (computed : w.Computed arithmetic)
    (zero : w.value.isPositiveInfinity = true) : w.negative = false := by
  obtain ⟨v, rfl⟩ := computed_iff.mp computed
  exact v.zero_positive zero

end SignedPair

end Transducer
