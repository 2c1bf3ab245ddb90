import Transducer.Floating.Text
import Transducer.Proofs.TextFields

/-! Decimals as text. A decimal is written with all its places and without zeros at the end, so what is read back may
be another decimal, but it has the same value. -/

namespace Transducer

namespace Numeral

variable {text rest : List Char} {start value : Nat}

theorem valueAfter_append (start : Nat) (text rest : List Char) :
    valueAfter start (text ++ rest) = (valueAfter start text).bind fun value => valueAfter value rest := by
  induction text generalizing start with
  | nil => rfl
  | cons c text ih =>
    simp only [List.cons_append, valueAfter]
    cases digitValue? c with
    | none => rfl
    | some digit => exact ih _

theorem valueAfter_zeros (start count : Nat) :
    valueAfter start (List.replicate count '0') = some (start * 10 ^ count) := by
  induction count generalizing start with
  | zero => simp [valueAfter]
  | succ count ih =>
    have zero : digitValue? '0' = some 0 := by decide
    simp only [List.replicate_succ, valueAfter, zero, Option.bind_eq_bind, Option.bind_some, ih, Option.some.injEq]
    rw [Nat.add_zero, Nat.mul_comm 10, Nat.mul_assoc, ← Nat.pow_succ']

/-- The text has digits and nothing else, if anything. -/
def AllDigits (text : List Char) : Prop := ∀ c ∈ text, ∃ value < 10, c = digit value

theorem AllDigits.append (first : AllDigits text) (second : AllDigits rest) : AllDigits (text ++ rest) :=
  List.forall_mem_append.mpr ⟨first, second⟩

theorem allDigits_zeros (count : Nat) : AllDigits (List.replicate count '0') := by
  intro c member
  exact ⟨0, by decide, List.eq_of_mem_replicate member⟩

theorem AllDigits.valued (digits : AllDigits text) : ∀ c ∈ text, (digitValue? c).isSome = true := by
  intro c member
  obtain ⟨value, small, rfl⟩ := digits c member
  rw [(digit_spec value small).1]
  rfl

theorem splitDigits_append (digits : AllDigits text) (stop : ∀ c ∈ rest.head?, digitValue? c = none) :
    splitDigits (text ++ rest) = (text, rest) := by
  have kept : (rest.takeWhile fun c => (digitValue? c).isSome) = [] ∧
      (rest.dropWhile fun c => (digitValue? c).isSome) = rest := by
    cases rest with
    | nil => exact ⟨rfl, rfl⟩
    | cons c rest =>
      have other : digitValue? c = none := stop c rfl
      simp [other]
  rw [splitDigits, List.takeWhile_append_of_pos digits.valued, List.dropWhile_append_of_pos digits.valued, kept.1,
    kept.2, List.append_nil]

/-- The count of the digits is the place of the first one. -/
theorem digits_bounds {number : Nat} (pos : 0 < number) :
    10 ^ ((digits number).length - 1) ≤ number ∧ number < 10 ^ (digits number).length := by
  have bounds (number : Nat) (rest : List Char) (pos : 0 < number) :
      ∃ count, (digitsBefore number rest).length = count + 1 + rest.length ∧
        10 ^ count ≤ number ∧ number < 10 ^ (count + 1) := by
    induction number, rest using digitsBefore.induct with
    | case1 number rest small =>
      rw [digitsBefore, if_pos small]
      exact ⟨0, by simp; omega, pos, small⟩
    | case2 number rest large ih =>
      obtain ⟨count, length, least, most⟩ := ih (by omega)
      rw [digitsBefore, if_neg large]
      refine ⟨count + 1, by simp at length ⊢; omega, ?_, ?_⟩
      · rw [Nat.pow_succ]
        omega
      · rw [Nat.pow_succ]
        omega
  obtain ⟨count, length, least, most⟩ := bounds number [] pos
  rw [digits, length]
  exact ⟨least, most⟩

end Numeral

namespace Decimal

/-- The value as a quotient of naturals. -/
def numerator (decimal : Decimal) : Nat := decimal.digits * (tenPower decimal.exponent).2

def denominator (decimal : Decimal) : Nat := (tenPower decimal.exponent).1

theorem denominator_pos (decimal : Decimal) : 0 < decimal.denominator := Nat.pow_pos (by decide)

/-- The two decimals have the same value. -/
def Same (first second : Decimal) : Prop :=
  first.numerator * second.denominator = second.numerator * first.denominator

section Text

open Numeral

variable {whole fraction : List Char} {value : Nat}

/-- Digits with a point among them, unless nothing follows it. -/
def pointed (whole fraction : List Char) : List Char := if fraction = [] then whole else whole ++ '.' :: fraction

theorem readDecimal?_pointed (some : whole ≠ []) (digits : AllDigits whole) (more : AllDigits fraction)
    (valued : valueAfter 0 (whole ++ fraction) = .some value) :
    Floating.readDecimal? (pointed whole fraction) = .some ⟨value, -fraction.length⟩ := by
  have read : value? (whole ++ fraction) = .some value := by
    rw [value?, if_neg (by simp [some]), valued]
  have ends {text : List Char} (digits : AllDigits text) : splitDigits text = (text, []) := by
    have split : splitDigits (text ++ []) = (text, []) := splitDigits_append digits fun c member => by cases member
    rwa [List.append_nil] at split
  by_cases none : fraction = []
  · subst none
    simp only [pointed, if_true, Floating.readDecimal?, ends digits, Floating.splitFraction, read,
      Floating.readExponent?]
    rfl
  · have front : splitDigits (whole ++ '.' :: fraction) = (whole, '.' :: fraction) :=
      splitDigits_append digits fun c member => by
        cases member
        decide
    simp only [pointed, none, if_false, Floating.readDecimal?, front, Floating.splitFraction, ends more, read,
      Floating.readExponent?]
    simp [bind, Option.bind, pure]

theorem exists_zeros_behind (text : List Char) :
    ∃ count, text = (text.reverse.dropWhile (· == '0')).reverse ++ List.replicate count '0' := by
  have parts := List.takeWhile_append_dropWhile (p := (· == '0')) (l := text.reverse)
  have zeros : text.reverse.takeWhile (· == '0') =
      List.replicate (text.reverse.takeWhile (· == '0')).length '0' := by
    apply List.eq_replicate_of_mem
    intro c member
    simpa using List.all_eq_true.mp List.all_takeWhile c member
  refine ⟨(text.reverse.takeWhile (· == '0')).length, ?_⟩
  calc text
    _ = (text.reverse.takeWhile (· == '0') ++ text.reverse.dropWhile (· == '0')).reverse := by
      rw [parts, List.reverse_reverse]
    _ = _ := by rw [List.reverse_append, zeros, List.reverse_replicate, List.length_replicate]

/-- What a written decimal consists of. -/
structure Written (decimal : Decimal) (text whole fraction : List Char) (value : Nat) : Prop where
  text_eq : text = pointed whole fraction
  some : whole ≠ []
  digits : AllDigits whole
  more : AllDigits fraction
  valued : valueAfter 0 (whole ++ fraction) = .some value
  same : Same ⟨value, -fraction.length⟩ decimal

theorem valueAfter_padded (count number : Nat) :
    valueAfter 0 (List.replicate count '0' ++ Numeral.digits number) = .some number := by
  rw [valueAfter_append, valueAfter_zeros, Nat.zero_mul, Option.bind_some, Numeral.digits, valueAfter_digitsBefore,
    valueAfter]

theorem withPoint_written {decimal : Decimal} (below : decimal.exponent < 0) :
    ∃ whole fraction value,
      decimal.Written (withPoint (Numeral.digits decimal.digits) (-decimal.exponent).toNat) whole fraction value := by
  simp only [withPoint]
  generalize placed : (-decimal.exponent).toNat = places
  generalize padding : List.replicate (places + 1 - (Numeral.digits decimal.digits).length) '0' ++
    Numeral.digits decimal.digits = padded
  have long : places + 1 ≤ padded.length := by
    rw [← padding, List.length_append, List.length_replicate]
    omega
  have digits : AllDigits padded := padding ▸ (allDigits_zeros _).append (digits_decimal decimal.digits).2
  have valued : valueAfter 0 padded = .some decimal.digits := padding ▸ valueAfter_padded _ _
  obtain ⟨count, behind⟩ := exists_zeros_behind (padded.drop (padded.length - places))
  generalize ((padded.drop (padded.length - places)).reverse.dropWhile (· == '0')).reverse = fraction at behind ⊢
  generalize wholes : padded.take (padded.length - places) = whole
  have parts : whole ++ fraction ++ List.replicate count '0' = padded := by
    rw [List.append_assoc, ← behind, ← wholes, List.take_append_drop]
  have length : fraction.length + count = places := by
    have sizes := congrArg List.length behind
    rw [List.length_append, List.length_replicate, List.length_drop] at sizes
    omega
  rw [← parts] at digits
  obtain ⟨front, -⟩ := List.forall_mem_append.mp digits
  obtain ⟨wholeDigits, fractionDigits⟩ := List.forall_mem_append.mp front
  rw [← parts, valueAfter_append] at valued
  obtain ⟨value, read, shifted⟩ := Option.bind_eq_some_iff.mp valued
  rw [valueAfter_zeros, Option.some.injEq] at shifted
  refine ⟨whole, fraction, value, rfl, ?_, wholeDigits, fractionDigits, read, ?_⟩
  · intro none
    have sizes := congrArg List.length wholes
    rw [none, List.length_take, List.length_nil] at sizes
    omega
  · have exponent : decimal.exponent.toNat = 0 := by omega
    simp only [Same, numerator, denominator, tenPower, exponent, placed, Int.neg_neg, Int.toNat_natCast,
      Int.toNat_neg_natCast, Nat.pow_zero, Nat.mul_one]
    rw [← shifted, ← length, Nat.add_comm fraction.length, Nat.pow_add, Nat.mul_assoc]

theorem render_written (decimal : Decimal) :
    ∃ whole fraction value, decimal.Written decimal.render whole fraction value := by
  unfold render
  split
  next above =>
    refine ⟨_, [], decimal.digits * 10 ^ decimal.exponent.toNat, (if_pos rfl).symm, ?_, ?_, ?_, ?_, ?_⟩
    · simp [(digits_decimal decimal.digits).1]
    · exact AllDigits.append (digits_decimal decimal.digits).2 (allDigits_zeros _)
    · exact List.forall_mem_nil _
    · rw [List.append_nil, valueAfter_append, Numeral.digits, valueAfter_digitsBefore, valueAfter, Option.bind_some,
        valueAfter_zeros]
    · have exponent : (-decimal.exponent).toNat = 0 := by omega
      simp [Same, numerator, denominator, tenPower, exponent]
  next below => exact withPoint_written (Int.not_le.mp below)

end Text

/-- A written decimal is read as one of the same value. -/
theorem readDecimal?_render (decimal : Decimal) :
    ∃ back, Floating.readDecimal? decimal.render = some back ∧ back.Same decimal := by
  obtain ⟨whole, fraction, value, written⟩ := decimal.render_written
  refine ⟨_, ?_, written.same⟩
  rw [written.text_eq]
  exact readDecimal?_pointed written.some written.digits written.more written.valued

end Decimal

end Transducer
