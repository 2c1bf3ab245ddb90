import Transducer.Proofs.PrefixFreedom
import Transducer.Proofs.Quotients

/-! Stored weights say where they end, so that they stand in a row without any frame around them. A weight is read
from the block of bytes that is written for it, before any rest and from nothing shorter. Any other block that is read
as a weight has a signed logarithm of zero in it, stored with the sign that zero does not have. -/

namespace Transducer

namespace Parser.Delimits

variable {ε α : Type} {short : ε} {parser : Parser ε α} {input block rest : Bytes} {value : α}

theorem takes (delimits : Delimits short parser) (taken : parser block = .ok (value, [])) :
    Takes short parser block value := by
  obtain ⟨whole, same, takes⟩ := delimits block value [] taken
  rwa [same, List.append_nil]

/-- What is read in front of a rest is read alone. -/
theorem ok_iff (delimits : Delimits short parser) :
    parser input = .ok (value, rest) ↔ ∃ block, input = block ++ rest ∧ parser block = .ok (value, []) := by
  constructor
  · intro taken
    obtain ⟨block, same, takes⟩ := delimits input value rest taken
    exact ⟨block, same, by simpa using takes.whole []⟩
  · rintro ⟨block, rfl, alone⟩
    exact (delimits.takes alone).whole rest

end Parser.Delimits

namespace SignedLog

variable {width : Width} {w : SignedLog width} {block : Bytes}

theorem eq_zero_iff : w = zero ↔ w.value.isPositiveInfinity = true := by
  constructor
  · rintro rfl
    simp [zero, make, Floating.isPositiveInfinity, Floating.isInfinite, Floating.infinity]
  · intro infinite
    obtain ⟨negative, ⟨sign, magnitude, bound⟩, positive⟩ := w
    obtain rfl := positive infinite
    obtain ⟨rfl, rfl⟩ : magnitude = width.infinity ∧ sign = false := by
      simpa [Floating.isPositiveInfinity, Floating.isInfinite] using infinite
    rfl

/-- The sign of zero and the logarithm of zero, as they are stored only by others. -/
def negativeZero (width : Width) : Bytes :=
  Number.encode (signNumber true : Floating width) ++ Number.encode (.infinity : Floating width)

theorem decode_block : SignedLog.decode block = .ok (w, []) ↔
    Weight.encode w = .ok block ∨ w = zero ∧ block = negativeZero width := by
  have written : Weight.encode w =
      .ok (Number.encode (signNumber w.negative : Floating width) ++ Number.encode w.value) := rfl
  rw [decode_ok, written, Except.ok.injEq]
  simp only [make_eq_iff, List.append_nil, ← eq_zero_iff]
  constructor
  · rintro ⟨negative, accepted, rfl⟩
    by_cases same : negative = w.negative
    · exact .inl (by rw [same])
    obtain rfl := accepted.resolve_right same
    obtain rfl : negative = true := by simpa [zero, make] using same
    exact .inr ⟨rfl, rfl⟩
  · rintro (rfl | ⟨rfl, rfl⟩)
    · exact ⟨w.negative, .inr rfl, rfl⟩
    · exact ⟨true, .inl rfl, rfl⟩

end SignedLog

/-- A block that is read as the weight although another one is written for it. -/
def BuiltIn.Alternate : (type : BuiltIn) → type.Carrier → Bytes → Prop
  | signedLog width, w, block => w = SignedLog.zero ∧ block = SignedLog.negativeZero width
  | tropical _, _, _ => False
  | log _, _, _ => False
  | minMax _, _, _ => False
  | boolean, _, _ => False
  | labelString _, _, _ => False

theorem StoredWeight.decode_block {W : Type} [Weight W] [StoredWeight W] {w : W} {bytes block : Bytes}
    (single : StoredWeight.fields w = [.exact bytes]) :
    Weight.decode block = .ok (w, []) ↔ Weight.encode w = .ok block := by
  rw [StoredWeight.decode_iff, StoredWeight.encode_iff, single, spells_singleton, List.append_nil]
  simp [written, Field.written]

theorem BuiltIn.decode_block {type : BuiltIn} {w : type.Carrier} {block : Bytes} :
    Weight.decode block = .ok (w, []) ↔ Weight.encode w = .ok block ∨ type.Alternate w block := by
  cases type with
  | signedLog => exact SignedLog.decode_block
  | tropical | log | minMax | boolean | labelString =>
    exact (StoredWeight.decode_block rfl).trans (iff_of_eq (or_false _)).symm

namespace WeightType

variable {type : WeightType} {block : Bytes}

/-- The block stands for the weight: leaf after leaf it is what is written, or the alternate of it. -/
def StandsFor : (type : WeightType) → type.Carrier → Bytes → Prop
  | builtIn type, w, block => Weight.encode w = .ok block ∨ type.Alternate w block
  | product first second, w, block =>
    ∃ front back, block = front ++ back ∧ first.StandsFor w.first front ∧ second.StandsFor w.second back

theorem decode_block {w : type.Carrier} : Weight.decode block = .ok (w, []) ↔ type.StandsFor w block := by
  induction type generalizing block with
  | builtIn type => exact BuiltIn.decode_block
  | product first second ihFirst ihSecond =>
    have inTurn : Weight.decode block = .ok (w, []) ↔ ∃ middle,
        Weight.decode block = .ok (w.first, middle) ∧ Weight.decode middle = .ok (w.second, []) := by
      simp only [Weight.decode, Parser.bind_ok, Parser.pure_ok]
      constructor
      · rintro ⟨_, middle, front, _, _, back, rfl, rfl⟩
        exact ⟨middle, front, back⟩
      · rintro ⟨middle, front, back⟩
        exact ⟨_, middle, front, _, _, back, rfl, rfl⟩
    rw [inTurn, StandsFor]
    constructor
    · rintro ⟨back, taken, other⟩
      obtain ⟨front, rfl, one⟩ := first.decode_delimits.ok_iff.mp taken
      exact ⟨front, back, rfl, ihFirst.mp one, ihSecond.mp other⟩
    · rintro ⟨front, back, rfl, one, other⟩
      exact ⟨back, first.decode_delimits.ok_iff.mpr ⟨front, rfl, ihFirst.mpr one⟩, ihSecond.mpr other⟩

/-- Only zeros of signed logarithms have alternates. -/
theorem StandsFor.encode {w : type.Carrier} (stands : type.StandsFor w block)
    (plain : ∀ {width : Width} (leaf : type.Leaf (.signedLog width)), leaf.get w ≠ SignedLog.zero) :
    Weight.encode w = .ok block := by
  induction type generalizing block with
  | builtIn type =>
    refine stands.resolve_right fun alternate => ?_
    cases type with
    | signedLog => exact plain .here alternate.1
    | tropical | log | minMax | boolean | labelString => exact alternate
  | product first second ihFirst ihSecond =>
    obtain ⟨front, back, rfl, one, other⟩ := stands
    have front := ihFirst one fun leaf => plain (.first leaf)
    have back := ihSecond other fun leaf => plain (.second leaf)
    exact except_bind_ok.mpr ⟨_, front, except_bind_ok.mpr ⟨_, back, rfl⟩⟩

theorem fits_iff {w : type.Carrier} : StoredWeight.Fits w ↔
    ∀ {side : Side} (leaf : type.Leaf (.labelString side)) word, leaf.get w = .labels word →
      word.length ≤ LabelString.maxLength := by
  induction type with
  | builtIn type =>
    cases type with
    | labelString side =>
      constructor
      · rintro fits side (_ | _ | _) word rfl
        exact fits
      · intro short
        cases w with
        | labels word => exact short .here word rfl
        | infinity => exact Nat.zero_le _
        | bad => exact Nat.zero_le _
    | tropical | log | signedLog | minMax | boolean => exact iff_of_true trivial nofun
  | product first second ihFirst ihSecond =>
    refine (and_congr ihFirst ihSecond).trans ⟨fun both side leaf => ?_, fun all => ?_⟩
    · cases leaf with
      | first leaf => exact both.1 leaf
      | second leaf => exact both.2 leaf
    · exact ⟨fun leaf => all (.first leaf), fun leaf => all (.second leaf)⟩

end WeightType

open Weight in
/-- Every weight whose strings are short enough is written as a block, is read from it in front of any rest, and no
less will do. What is read is the block of a weight that can be written, in as many bytes and in the same ones, but
where a signed logarithm of zero was stored as negative. -/
theorem weights_delimit (type : WeightType) :
    (∀ w : type.Carrier,
      (∀ {side : Side} (leaf : type.Leaf (.labelString side)) word, leaf.get w = .labels word →
        word.length ≤ LabelString.maxLength) →
      ∃ block, encode w = .ok block ∧ (∀ rest, decode (block ++ rest) = .ok (w, rest)) ∧
        ∀ front, front <+: block → front ≠ block → (decode : Decoder type.Carrier) front = .error .endOfInput) ∧
    (∀ (input rest : Bytes) (w : type.Carrier), decode input = .ok (w, rest) ↔
      ∃ block, input = block ++ rest ∧ type.StandsFor w block) ∧
    ∀ (w : type.Carrier) (block : Bytes), type.StandsFor w block →
      (∃ bytes, encode w = .ok bytes ∧ bytes.length = block.length) ∧
      ((∀ {width : Width} (leaf : type.Leaf (.signedLog width)), leaf.get w ≠ SignedLog.zero) →
        encode w = .ok block) := by
  refine ⟨fun w short => ?_, fun input rest w => ?_, fun w block stands => ⟨?_, stands.encode⟩⟩
  · have fits : StoredWeight.Fits w := WeightType.fits_iff.mpr short
    have spelled : Spells (StoredWeight.fields w) (written (StoredWeight.fields w)) [] := by
      simpa using spells_written (StoredWeight.fields w) []
    have takes := type.decode_delimits.takes (StoredWeight.decode_iff.mpr ⟨fits, spelled⟩)
    exact ⟨_, StoredWeight.encode_iff.mpr ⟨fits, rfl⟩, takes.whole, takes.cut⟩
  · rw [type.decode_delimits.ok_iff]
    simp only [WeightType.decode_block]
  · obtain ⟨fits, spelled⟩ := StoredWeight.decode_iff.mp (WeightType.decode_block.mpr stands)
    exact ⟨_, StoredWeight.encode_iff.mpr ⟨fits, rfl⟩, spelled.length.symm⟩

/-- A balance and the account it belongs to. -/
abbrev balanceType : WeightType := .product (.builtIn (.signedLog .single)) (.builtIn (.labelString .right))

def balance (amount : SignedLog .single) : balanceType.Carrier := ⟨amount, .labels [7]⟩

/-- A balance of nothing is also read from where it was stored as a debt. -/
theorem balances_delimit :
    (∃ block, Weight.encode (balance .zero) = .ok block ∧
      (∀ rest, Weight.decode (block ++ rest) = .ok (balance .zero, rest)) ∧
      ∀ front, front <+: block → front ≠ block →
        (Weight.decode : Decoder balanceType.Carrier) front = .error .endOfInput) ∧
    (∀ rest, Weight.decode ((SignedLog.negativeZero .single ++ [1, 0, 0, 0, 7, 0, 0, 0]) ++ rest) =
      .ok (balance .zero, rest)) ∧
    (∃ bytes, Weight.encode (balance .zero) = .ok bytes ∧ bytes.length = 16) ∧
    ∀ block, balanceType.StandsFor (balance .one) block → Weight.encode (balance .one) = .ok block := by
  obtain ⟨own, reads, stored⟩ := weights_delimit balanceType
  have short (amount : SignedLog .single) {side : Side} (leaf : balanceType.Leaf (.labelString side)) (word : List Label)
      (same : leaf.get (balance amount) = .labels word) : word.length ≤ LabelString.maxLength := by
    rcases leaf with _ | leaf | leaf <;> cases leaf
    cases same
    decide
  have debt : balanceType.StandsFor (balance .zero) (SignedLog.negativeZero .single ++ [1, 0, 0, 0, 7, 0, 0, 0]) :=
    ⟨_, _, rfl, .inr ⟨rfl, rfl⟩, .inl rfl⟩
  refine ⟨own _ (short .zero), fun rest => (reads _ rest _).mpr ⟨_, rfl, debt⟩, (stored _ _ debt).1, ?_⟩
  refine fun block stands => (stored _ block stands).2 fun {width} leaf => ?_
  rcases leaf with _ | leaf | leaf <;> cases leaf
  decide +kernel

end Transducer
