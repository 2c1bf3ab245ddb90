import Transducer.Proofs.Spelling
import Transducer.Weight.Catalog

/-! How the weights of each type are spelled. A weight is written as its fields are, and read wherever they
are spelled, so of all weights only a signed logarithm of zero can be read from bytes that are not its own. -/

namespace Transducer

/-- The spelling of a type's weights, and which of them can be written at all. -/
class StoredWeight (W : Type) [Weight W] where
  fields : W → List Field
  Fits : W → Prop
  encode_iff {w : W} {bytes : Bytes} : Weight.encode w = .ok bytes ↔ Fits w ∧ bytes = written (fields w)
  decode_iff {w : W} {input rest : Bytes} :
    Weight.decode input = .ok (w, rest) ↔ Fits w ∧ Spells (fields w) input rest

variable {width : Width} {input rest : Bytes}

namespace Floating

theorem pow_size (width : Width) : 256 ^ width.size = 2 * width.signBit := by
  cases width <;> rfl

theorem bits_lt (x : Floating width) : x.bits < 256 ^ width.size := by
  have bound := x.magnitude_lt
  rw [pow_size, bits]
  split <;> omega

theorem bits_ofBits {pattern : Nat} (bound : pattern < 256 ^ width.size) :
    (ofBits pattern : Floating width).bits = pattern := by
  have pos := width.signBit_pos
  rw [pow_size] at bound
  have small : pattern / width.signBit < 2 := Nat.div_lt_of_lt_mul (by omega)
  have parts := Nat.div_add_mod pattern width.signBit
  unfold ofBits bits
  by_cases high : pattern / width.signBit = 1
  · rw [high] at parts
    simp [high]
    omega
  · have low : pattern / width.signBit = 0 := Nat.lt_one_iff.mp (Nat.lt_of_le_of_ne (Nat.le_of_lt_succ small) high)
    rw [low] at parts
    simp [low]
    omega

/-- Equal numbers other than zero are the same. -/
theorem equal_iff {x y : Floating width} (number : y.isNaN = false) (other : y.magnitude ≠ 0) :
    x.equal y = true ↔ x = y := by
  constructor
  · intro equal
    obtain ⟨negative, magnitude, _⟩ := x
    obtain ⟨negative', magnitude', _⟩ := y
    have ranks : (if negative then -(magnitude : Int) else magnitude) =
        if negative' then -(magnitude' : Int) else magnitude' := by
      simp only [Floating.equal, Bool.and_eq_true, decide_eq_true_eq] at equal
      exact equal.2
    have signs : negative = negative' := by
      cases negative <;> cases negative' <;> simp at ranks other ⊢ <;> omega
    subst signs
    have same : magnitude = magnitude' := by
      split at ranks <;> omega
    subst same
    rfl
  · intro same
    subst same
    simp [Floating.equal, number]

end Floating

theorem Number.decode_ok {x : Floating width} :
    Number.decode input = .ok (x, rest) ↔ input = Number.encode x ++ rest := by
  simp only [Number.decode, Parser.bind_ok, Parser.pure_ok, Decoder.word_ok]
  constructor
  · intro given
    obtain ⟨pattern, middle, ⟨bound, rfl⟩, rfl, rfl⟩ := given
    rw [Number.encode, Floating.bits_ofBits bound]
  · intro same
    subst same
    exact ⟨x.bits, rest, ⟨x.bits_lt, rfl⟩, Floating.ofBits_bits x, rfl⟩

@[reducible] def StoredWeight.ofNumber {W : Type} [Weight W] (value : W → Floating width) (make : Floating width → W)
    (encode : ∀ w : W, Weight.encode w = .ok (Number.encode (value w)))
    (decode : (Weight.decode : Decoder W) = make <$> Number.decode)
    (value_make : ∀ x, value (make x) = x) (make_value : ∀ w, make (value w) = w) : StoredWeight W where
  fields w := [.exact (Number.encode (value w))]
  Fits _ := True
  encode_iff {w bytes} := by simp [encode, written, Field.written, eq_comm]
  decode_iff {w input rest} := by
    simp only [decode, Parser.map_ok, Number.decode_ok, spells_singleton, true_and]
    constructor
    · intro given
      obtain ⟨x, rfl, rfl⟩ := given
      rw [value_make]
    · intro same
      subst same
      exact ⟨value w, rfl, make_value w⟩

instance : StoredWeight (Tropical width) :=
  .ofNumber Tropical.value Tropical.mk (fun _ => rfl) rfl (fun _ => rfl) fun _ => rfl

instance : StoredWeight (Log width) := .ofNumber Log.value Log.mk (fun _ => rfl) rfl (fun _ => rfl) fun _ => rfl

instance : StoredWeight (MinMax width) :=
  .ofNumber MinMax.value MinMax.mk (fun _ => rfl) rfl (fun _ => rfl) fun _ => rfl

namespace SignedLog

theorem signNumber_negative (negative : Bool) : (signNumber negative : Floating width).negative = negative := by
  cases width <;> cases negative <;> decide +kernel

theorem signNumber_injective {first second : Bool} (same : (signNumber first : Floating width) = signNumber second) :
    first = second := by
  calc first
    _ = (signNumber first : Floating width).negative := (signNumber_negative first).symm
    _ = (signNumber second : Floating width).negative := by rw [same]
    _ = second := signNumber_negative second

theorem equal_signNumber {sign : Floating width} {negative : Bool} :
    sign.equal (signNumber negative) = true ↔ sign = signNumber negative := by
  apply Floating.equal_iff (Floating.isNaN_ofQuotient ..)
  cases width <;> cases negative <;> decide +kernel

/-- The sign is read from one of two numbers, and it counts for nothing beside an infinite logarithm. -/
theorem decode_ok {w : SignedLog width} : SignedLog.decode input = .ok (w, rest) ↔
    ∃ negative, make negative w.value = w ∧
      input = Number.encode (signNumber negative : Floating width) ++ (Number.encode w.value ++ rest) := by
  simp only [SignedLog.decode, Parser.bind_ok, Parser.ite_ok, Parser.pure_ok, Parser.throw_ok, Number.decode_ok,
    equal_signNumber]
  constructor
  · intro given
    obtain ⟨sign, _, rfl, value, _, rfl, ⟨rfl, rfl, rfl⟩ | ⟨_, ⟨rfl, rfl, rfl⟩ | ⟨_, ⟨⟩⟩⟩⟩ := given
    · exact ⟨false, rfl, rfl⟩
    · exact ⟨true, rfl, rfl⟩
  · intro given
    obtain ⟨negative, same, rfl⟩ := given
    refine ⟨signNumber negative, _, rfl, w.value, rest, rfl, ?_⟩
    cases negative with
    | false => exact .inl ⟨rfl, same, rfl⟩
    | true => exact .inr ⟨fun same => Bool.noConfusion (signNumber_injective same), .inl ⟨rfl, same, rfl⟩⟩

instance : StoredWeight (SignedLog width) where
  fields w :=
    [if w.value.isPositiveInfinity then .zeroSign width
      else .exact (Number.encode (signNumber w.negative : Floating width)),
     .exact (Number.encode w.value)]
  Fits _ := True
  encode_iff {w bytes} := by
    by_cases zero : w.value.isPositiveInfinity = true
    · simp [Weight.encode, written, Field.written, zero, w.zero_positive zero, eq_comm]
    · simp [Weight.encode, written, Field.written, zero, eq_comm]
  decode_iff {w input rest} := by
    apply decode_ok.trans
    simp only [make_eq_iff, true_and]
    by_cases zero : w.value.isPositiveInfinity = true
    · simp only [zero, true_or, true_and, if_true, Spells, Field.Spelled]
      constructor
      · intro given
        obtain ⟨negative, rfl⟩ := given
        exact ⟨_, _, ⟨negative, rfl⟩, rfl, _, _, rfl, rfl, rfl⟩
      · intro given
        obtain ⟨_, _, ⟨negative, rfl⟩, rfl, _, _, rfl, rfl, rfl⟩ := given
        exact ⟨negative, rfl⟩
    · simp only [zero, false_or, if_false, spells_exact, Bool.false_eq_true, exists_eq_left]
      constructor
      · intro same
        subst same
        exact ⟨_, rfl, _, rfl, rfl⟩
      · intro given
        obtain ⟨_, rfl, _, rfl, rfl⟩ := given
        rfl

end SignedLog

namespace Boolean

theorem decode_ok {w : Boolean} : Boolean.decode input = .ok (w, rest) ↔ input = w.byte :: rest := by
  simp only [Boolean.decode, Parser.bind_ok, Decoder.word_ok]
  constructor
  · intro given
    obtain ⟨value, middle, ⟨bound, rfl⟩, taken⟩ := given
    split at taken
    all_goals cases taken
    all_goals rfl
  · intro same
    subst same
    refine ⟨w.byte.toNat, rest, ⟨w.byte.toNat_lt, by simp [Bytes.ofWord]⟩, ?_⟩
    rcases w with ⟨_ | _ | _⟩ <;> rfl

instance : StoredWeight Boolean where
  fields w := [.exact [w.byte]]
  Fits _ := True
  encode_iff {w bytes} := by simp [Weight.encode, written, Field.written, eq_comm]
  decode_iff {w input rest} := by
    rw [spells_singleton, true_and]
    exact decode_ok

end Boolean

namespace LabelString

variable {side : Side}

theorem decodeLabels_ok {count : Nat} {word : List Label} : decodeLabels count input = .ok (word, rest) ↔
    word.length = count ∧ input = encodeLabels word ++ rest := by
  induction count generalizing input word with
  | zero =>
    rw [decodeLabels, Parser.pure_ok]
    constructor
    · intro given
      obtain ⟨rfl, rfl⟩ := given
      exact ⟨rfl, rfl⟩
    · intro given
      obtain ⟨empty, rfl⟩ := given
      obtain rfl := List.eq_nil_of_length_eq_zero empty
      exact ⟨rfl, rfl⟩
  | succ count ih =>
    simp only [decodeLabels, Parser.bind_ok, Parser.pure_ok, Decoder.word_ok]
    constructor
    · intro given
      obtain ⟨value, _, ⟨bound, rfl⟩, tail, _, taken, rfl, rfl⟩ := given
      obtain ⟨rfl, rfl⟩ := ih.mp taken
      have same : (UInt32.ofNat value).toNat = value := UInt32.toNat_ofNat_of_lt' bound
      simp [encodeLabels, same]
    · intro given
      obtain ⟨sized, rfl⟩ := given
      obtain ⟨label, tail, rfl⟩ := List.exists_cons_of_length_eq_add_one sized
      refine ⟨label.toNat, encodeLabels tail ++ rest, ⟨label.toNat_lt, ?_⟩, tail, rest, ?_, ?_, rfl⟩
      · simp [encodeLabels]
      · exact ih.mpr ⟨Nat.succ.inj sized, rfl⟩
      · rw [UInt32.ofNat_toNat]

def mark : LabelString side → Nat
  | labels word => word.length
  | infinity => infinityLength
  | bad => badLength

def word : LabelString side → List Label
  | labels word => word
  | infinity => []
  | bad => []

theorem decode_ok {w : LabelString side} : LabelString.decode input = .ok (w, rest) ↔
    w.word.length ≤ maxLength ∧ input = Bytes.ofWord 4 w.mark ++ encodeLabels w.word ++ rest := by
  simp only [LabelString.decode, Parser.bind_ok, Decoder.word_ok, Parser.ite_ok, Parser.pure_ok, Parser.throw_ok,
    decodeLabels_ok]
  constructor
  · intro given
    obtain ⟨length, _, ⟨bound, rfl⟩, taken⟩ := given
    rcases taken with ⟨rfl, rfl, rfl⟩ | ⟨_, ⟨rfl, rfl, rfl⟩ | ⟨_, ⟨fits, word, _, ⟨rfl, rfl⟩, rfl, rfl⟩ | ⟨_, ⟨⟩⟩⟩⟩
    · simp [word, mark, encodeLabels]
    · simp [word, mark, encodeLabels]
    · simp [mark, LabelString.word, fits]
  · intro given
    obtain ⟨fits, rfl⟩ := given
    cases w with
    | labels word =>
      have fits : word.length ≤ maxLength := fits
      unfold maxLength at fits
      refine ⟨word.length, encodeLabels word ++ rest, ⟨by omega, by simp [mark, LabelString.word]⟩, ?_⟩
      refine .inr ⟨?_, .inr ⟨?_, .inl ⟨fits, word, rest, ⟨rfl, rfl⟩, rfl, rfl⟩⟩⟩
      · unfold infinityLength
        omega
      · unfold badLength
        omega
    | infinity => exact ⟨infinityLength, rest, ⟨by decide, rfl⟩, .inl ⟨rfl, rfl, rfl⟩⟩
    | bad => exact ⟨badLength, rest, ⟨by decide, rfl⟩, .inr ⟨by decide, .inl ⟨rfl, rfl, rfl⟩⟩⟩

instance : StoredWeight (LabelString side) where
  fields w := [.exact (Bytes.ofWord 4 w.mark ++ encodeLabels w.word)]
  Fits w := w.word.length ≤ maxLength
  encode_iff {w bytes} := by
    cases w with
    | labels word =>
      have encoded : Weight.encode (labels word : LabelString side) = if word.length ≤ maxLength
          then .ok (Bytes.ofWord 4 word.length ++ encodeLabels word) else .error .tooLong := rfl
      rw [encoded]
      split <;> simp [mark, LabelString.word, written, Field.written, eq_comm, *]
    | infinity => simp [Weight.encode, encode, mark, word, encodeLabels, written, Field.written, eq_comm]
    | bad => simp [Weight.encode, encode, mark, word, encodeLabels, written, Field.written, eq_comm]
  decode_iff {w input rest} := by
    rw [spells_singleton]
    exact decode_ok

end LabelString

instance {V W : Type} [Weight V] [Weight W] [StoredWeight V] [StoredWeight W] : StoredWeight (Product V W) where
  fields w := StoredWeight.fields w.first ++ StoredWeight.fields w.second
  Fits w := StoredWeight.Fits w.first ∧ StoredWeight.Fits w.second
  encode_iff {w bytes} := by
    simp only [Weight.encode, except_bind_ok, StoredWeight.encode_iff, written_append]
    constructor
    · intro given
      obtain ⟨_, ⟨fits, rfl⟩, _, ⟨fits', rfl⟩, ⟨⟩⟩ := given
      exact ⟨⟨fits, fits'⟩, rfl⟩
    · intro given
      obtain ⟨⟨fits, fits'⟩, rfl⟩ := given
      exact ⟨_, ⟨fits, rfl⟩, _, ⟨fits', rfl⟩, rfl⟩
  decode_iff {w input rest} := by
    simp only [Weight.decode, Parser.bind_ok, Parser.pure_ok, StoredWeight.decode_iff, spells_append]
    constructor
    · intro given
      obtain ⟨_, _, ⟨fits, front⟩, _, _, ⟨fits', back⟩, rfl, rfl⟩ := given
      exact ⟨⟨fits, fits'⟩, _, front, back⟩
    · intro given
      obtain ⟨⟨fits, fits'⟩, _, front, back⟩ := given
      exact ⟨_, _, ⟨fits, front⟩, _, _, ⟨fits', back⟩, rfl, rfl⟩

instance BuiltIn.stored : (type : BuiltIn) → StoredWeight type.Carrier
  | tropical _ => inferInstanceAs (StoredWeight (Tropical _))
  | log _ => inferInstanceAs (StoredWeight (Log _))
  | signedLog _ => inferInstanceAs (StoredWeight (SignedLog _))
  | minMax _ => inferInstanceAs (StoredWeight (MinMax _))
  | boolean => inferInstanceAs (StoredWeight Boolean)
  | labelString _ => inferInstanceAs (StoredWeight (LabelString _))

instance WeightType.stored : (type : WeightType) → StoredWeight type.Carrier
  | builtIn type => type.stored
  | product first second =>
    have := stored first
    have := stored second
    inferInstanceAs (StoredWeight (Product first.Carrier second.Carrier))

end Transducer
