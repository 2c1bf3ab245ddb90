import Transducer.Proofs.DecimalText
import Transducer.Proofs.Rounding
import Transducer.Weight.Number

/-! Numbers as text. The decimal that stands for a number lies among the values that round to it, so every number is
read back as it was, both zeros and both infinities among them. -/

namespace Transducer

namespace Width

variable {width : Width} {magnitude : Nat} {decimal other : Decimal}

/-- The value of the decimal is rounded to the magnitude. -/
def Rounds (width : Width) (decimal : Decimal) (magnitude : Nat) : Prop :=
  width.nearest (decimal.numerator * 2 ^ width.scale) decimal.denominator = magnitude

theorem Rounds.congr (rounds : width.Rounds decimal magnitude) (same : other.Same decimal) :
    width.Rounds other magnitude := by
  have crossed (first second : Nat) : first * 2 ^ width.scale * second = first * second * 2 ^ width.scale :=
    Nat.mul_right_comm ..
  have equal : other.numerator * 2 ^ width.scale * decimal.denominator =
      decimal.numerator * 2 ^ width.scale * other.denominator := by
    rw [crossed, crossed, same]
  rw [← rounds]
  apply Nat.le_antisymm
  · exact width.nearest_mono other.denominator_pos decimal.denominator_pos (Nat.le_of_eq equal)
  · exact width.nearest_mono decimal.denominator_pos other.denominator_pos (Nat.le_of_eq equal.symm)

/-- A decimal that rounds to a number other than zero is above half the least one and below infinity. -/
theorem Rounds.bounds (rounds : width.Rounds decimal magnitude) (pos : 0 < magnitude)
    (finite : magnitude < width.infinity) :
    decimal.denominator < 2 * (decimal.numerator * 2 ^ width.scale) ∧
    decimal.numerator * 2 ^ width.scale < width.units width.infinity * decimal.denominator := by
  have positive := decimal.denominator_pos
  constructor
  · by_contra small
    have most := width.nearest_mono positive Nat.two_pos
      (by omega : decimal.numerator * 2 ^ width.scale * 2 ≤ 1 * decimal.denominator)
    have half : width.nearest 1 2 = 0 := by cases width <;> decide +kernel
    rw [rounds, half] at most
    omega
  · by_contra large
    have least := width.nearest_mono positive positive
      (Nat.mul_le_mul_right decimal.denominator (Nat.not_lt.mp large))
    rw [rounds, width.nearest_units positive (Nat.le_refl _)] at least
    omega

theorem rounds_of_readsBack (finite : magnitude + 1 < width.infinity)
    (reads : width.readsBack (magnitude + 1) decimal = true) : width.Rounds decimal (magnitude + 1) := by
  have twice : 2 * decimal.digits * 2 ^ width.scale * (tenPower decimal.exponent).2 =
      2 * (decimal.numerator * 2 ^ width.scale) := by
    rw [Decimal.numerator, Nat.mul_right_comm, Nat.mul_assoc 2, Nat.mul_assoc 2]
  simp only [readsBack, twice] at reads
  have denominator : (tenPower decimal.exponent).1 = decimal.denominator := rfl
  rw [denominator] at reads
  apply width.nearest_eq_succ decimal.denominator_pos finite
  · split at reads
    next even =>
      obtain ⟨low, -⟩ := of_decide_eq_true reads
      exact (Nat.lt_or_eq_of_le low).imp_right fun same => ⟨same, even⟩
    next => exact .inl (of_decide_eq_true reads).1
  · intro beyond
    split at reads
    next even =>
      obtain ⟨-, high⟩ := of_decide_eq_true reads
      rcases beyond with more | ⟨same, other⟩
      · exact Nat.not_lt.mpr high more
      · omega
    next =>
      obtain ⟨-, high⟩ := of_decide_eq_true reads
      rcases beyond with more | ⟨same, -⟩
      · exact Nat.lt_asymm more high
      · exact Nat.ne_of_gt high same

theorem readsBack_of_onGrid {exponent : Int} (found : width.onGrid magnitude exponent = some decimal) :
    width.readsBack magnitude decimal = true := by
  simp only [onGrid] at found
  split at found
  next below above =>
    split at found <;> cases found
    · exact below
    · exact above
  next below _ => cases found; exact below
  next _ above => cases found; exact above
  next => cases found

theorem shortest_rounds (pos : 0 < magnitude) (finite : magnitude < width.infinity) :
    width.Rounds (width.shortest magnitude) magnitude := by
  simp only [shortest]
  split
  next decimal found =>
    obtain ⟨count, -, onGrid⟩ := List.exists_of_findSome?_eq_some found
    obtain ⟨before, rfl⟩ := Nat.exists_eq_add_one_of_ne_zero (Nat.ne_of_gt pos)
    exact rounds_of_readsBack finite (readsBack_of_onGrid onGrid)
  next =>
    -- the exact value in units has a power of ten below it
    have numerator : (⟨width.units magnitude * 5 ^ width.scale, -width.scale⟩ : Decimal).numerator *
        2 ^ width.scale = width.units magnitude * 10 ^ width.scale := by
      simp [Decimal.numerator, tenPower, Nat.mul_assoc, ← Nat.mul_pow]
    have denominator : (⟨width.units magnitude * 5 ^ width.scale, -width.scale⟩ : Decimal).denominator =
        10 ^ width.scale := by
      simp [Decimal.denominator, tenPower]
    rw [Rounds, numerator, denominator]
    exact width.nearest_units (Nat.pow_pos (by decide)) (Nat.le_of_lt finite)

end Width

namespace Floating

variable {width : Width} {x : Floating width} {decimal : Decimal}

/-- Numbers other than zero and the infinities are well within 400 places of the point. -/
theorem leading_bounds {magnitude : Nat} (rounds : width.Rounds decimal magnitude) (pos : 0 < magnitude)
    (finite : magnitude < width.infinity) :
    0 < decimal.digits ∧ -400 ≤ (Numeral.digits decimal.digits).length + decimal.exponent ∧
      (Numeral.digits decimal.digits).length + decimal.exponent ≤ 400 := by
  obtain ⟨above, below⟩ := rounds.bounds pos finite
  simp only [Decimal.numerator, Decimal.denominator, tenPower] at above below
  have some : 0 < decimal.digits := by
    apply Nat.pos_of_ne_zero
    intro none
    rw [none, Nat.zero_mul, Nat.zero_mul] at above
    exact Nat.not_lt_zero _ above
  obtain ⟨least, most⟩ := Numeral.digits_bounds some
  generalize (Numeral.digits decimal.digits).length = length at *
  refine ⟨some, ?_, ?_⟩
  · by_contra small
    have whole : decimal.exponent.toNat = 0 := by omega
    have places : length + 401 ≤ (-decimal.exponent).toNat := by omega
    have room : 2 * 2 ^ width.scale ≤ 10 ^ 401 := by cases width <;> decide +kernel
    have grown : 10 ^ length * 10 ^ 401 ≤ 10 ^ (-decimal.exponent).toNat := by
      rw [← Nat.pow_add]
      exact Nat.pow_le_pow_right (by decide) places
    have value : 2 * (decimal.digits * 2 ^ width.scale) ≤ 10 ^ length * 10 ^ 401 := by
      rw [Nat.mul_left_comm]
      exact Nat.mul_le_mul (Nat.le_of_lt most) room
    rw [whole, Nat.pow_zero, Nat.mul_one] at above
    omega
  · by_contra large
    have places : (-decimal.exponent).toNat + 400 ≤ length - 1 + decimal.exponent.toNat := by omega
    have room : width.units width.infinity ≤ 10 ^ 400 * 2 ^ width.scale := by cases width <;> decide +kernel
    have grown : 10 ^ (-decimal.exponent).toNat * 10 ^ 400 ≤ 10 ^ (length - 1) * 10 ^ decimal.exponent.toNat := by
      rw [← Nat.pow_add, ← Nat.pow_add]
      exact Nat.pow_le_pow_right (by decide) places
    apply Nat.not_le.mpr below
    calc width.units width.infinity * 10 ^ (-decimal.exponent).toNat
      _ ≤ 10 ^ 400 * 2 ^ width.scale * 10 ^ (-decimal.exponent).toNat := Nat.mul_le_mul_right _ room
      _ = 10 ^ (-decimal.exponent).toNat * 10 ^ 400 * 2 ^ width.scale := by
        rw [Nat.mul_comm, ← Nat.mul_assoc]
      _ ≤ 10 ^ (length - 1) * 10 ^ decimal.exponent.toNat * 2 ^ width.scale := Nat.mul_le_mul_right _ grown
      _ ≤ decimal.digits * 10 ^ decimal.exponent.toNat * 2 ^ width.scale :=
        Nat.mul_le_mul_right _ (Nat.mul_le_mul_right _ least)

/-- A decimal that rounds to a magnitude is read as the number. -/
theorem ofDecimal_of_rounds (rounds : width.Rounds decimal x.magnitude) (pos : 0 < x.magnitude)
    (finite : x.magnitude < width.infinity) : ofDecimal x.negative decimal = x := by
  obtain ⟨some, low, high⟩ := leading_bounds rounds pos finite
  have within : ¬ (decimal.digits = 0 ∨ (Numeral.digits decimal.digits).length + decimal.exponent < -400) := by omega
  obtain ⟨negative, magnitude, bound⟩ := x
  cases rounds
  simp only [ofDecimal, within, Int.not_lt.mpr high, if_false]
  rfl

/-- A character of a decimal with its sign. -/
def Figure (c : Char) : Prop := c = '-' ∨ c = '.' ∨ ∃ value < 10, c = Numeral.digit value

instance : DecidablePred Figure := fun _ => inferInstanceAs (Decidable (_ ∨ _))

theorem render_figures (decimal : Decimal) : ∀ c ∈ decimal.render, Figure c := by
  obtain ⟨whole, fraction, value, written⟩ := decimal.render_written
  have digits {text : List Char} (all : Numeral.AllDigits text) : ∀ c ∈ text, Figure c := fun c member =>
    .inr (.inr (all c member))
  rw [written.text_eq]
  unfold Decimal.pointed
  split
  next => exact digits written.digits
  next =>
    have behind := List.forall_mem_cons.mpr ⟨.inr (.inl rfl), digits written.more⟩
    exact List.forall_mem_append.mpr ⟨digits written.digits, behind⟩

theorem renderFinite_figures (x : Floating width) : ∀ c ∈ x.renderFinite, Figure c := by
  have unsigned : ∀ c ∈ if x.magnitude = 0 then ['0'] else (width.shortest x.magnitude).render, Figure c := by
    split
    next => exact List.forall_mem_singleton.mpr (.inr (.inr ⟨0, by decide, rfl⟩))
    next => exact render_figures _
  simp only [renderFinite]
  cases x.negative with
  | true => exact List.forall_mem_cons.mpr ⟨.inl rfl, unsigned⟩
  | false => exact unsigned

/-- A decimal begins with a digit. -/
theorem exists_render (decimal : Decimal) : ∃ value < 10, ∃ rest, decimal.render = Numeral.digit value :: rest := by
  obtain ⟨whole, fraction, value, written⟩ := decimal.render_written
  obtain ⟨c, whole, rfl⟩ := List.exists_cons_of_ne_nil written.some
  obtain ⟨value, small, rfl⟩ := written.digits c List.mem_cons_self
  refine ⟨value, small, Decimal.pointed whole fraction, written.text_eq.trans ?_⟩
  unfold Decimal.pointed
  split <;> rfl

theorem digit_plain : ∀ value < 10, Numeral.digit value ≠ '-' ∧ Numeral.digit value ≠ '+' ∧
    (Numeral.digit value).toLower = Numeral.digit value ∧ Numeral.digit value ≠ 'i' ∧ Numeral.digit value ≠ 'n' := by
  decide

/-- What begins with a digit has no sign and is none of the names. -/
theorem read?_digit {value : Nat} (small : value < 10) (rest : List Char) (negative : Bool) :
    (read? (if negative then '-' :: Numeral.digit value :: rest else Numeral.digit value :: rest) :
      Option (Floating width)) = (readDecimal? (Numeral.digit value :: rest)).map (ofDecimal negative) := by
  obtain ⟨minus, plus, lower, other, other'⟩ := digit_plain value small
  have split :
      splitSign (if negative then '-' :: Numeral.digit value :: rest else Numeral.digit value :: rest) =
        (negative, Numeral.digit value :: rest) := by
    cases negative with
    | true => rfl
    | false =>
      simp only [Bool.false_eq_true, if_false]
      unfold splitSign
      split
      next same => exact absurd (List.cons.inj same).1 minus
      next same => exact absurd (List.cons.inj same).1 plus
      next => rfl
  simp only [read?, split, List.map_cons, lower]
  rw [if_neg, if_neg]
  · intro same
    exact other' (List.cons.inj same).1
  · intro same
    exact same.elim (fun same => other (List.cons.inj same).1) fun same => other (List.cons.inj same).1

theorem read?_renderFinite (finite : x.isFinite = true) : read? x.renderFinite = some x := by
  have small : x.magnitude < width.infinity := of_decide_eq_true finite
  unfold renderFinite
  by_cases none : x.magnitude = 0
  · have zero : readDecimal? [Numeral.digit 0] = some ⟨0, 0⟩ := by decide
    have text : ['0'] = [Numeral.digit 0] := rfl
    simp only [none, if_true]
    rw [text, read?_digit (by decide), zero]
    obtain ⟨negative, magnitude, bound⟩ := x
    cases none
    rfl
  · have pos := Nat.pos_of_ne_zero none
    obtain ⟨value, below, rest, text⟩ := exists_render (width.shortest x.magnitude)
    obtain ⟨back, read, same⟩ := Decimal.readDecimal?_render (width.shortest x.magnitude)
    have rounds := (Width.shortest_rounds pos small).congr same
    simp only [none, if_false]
    rw [text] at read ⊢
    rw [read?_digit below, read, Option.map_some, ofDecimal_of_rounds rounds pos small]

end Floating

namespace Number

open Floating

variable {width : Width} {x : Floating width}

theorem render_cases (number : x.isNaN = false) :
    (x.isFinite = true ∧ render x = x.renderFinite) ∨
    x = { (infinity : Floating width) with negative := x.negative } ∧
      render x = if x.negative then '-' :: "Infinity".toList else "Infinity".toList := by
  have bounded := magnitude_le number
  unfold render renderWith
  rw [number]
  simp only [Bool.false_eq_true, if_false]
  rcases Nat.lt_or_eq_of_le bounded with small | infinite
  · have finite : x.isInfinite = false := decide_eq_false (Nat.ne_of_lt small)
    rw [finite]
    exact .inl ⟨decide_eq_true small, rfl⟩
  · have infinity : x.isInfinite = true := decide_eq_true infinite
    rw [infinity]
    refine .inr ⟨?_, rfl⟩
    cases x
    cases infinite
    rfl

theorem render_of_isNaN (none : x.isNaN = true) : render x = "BadNumber".toList := by
  rw [render, renderWith, none, if_pos rfl]

/-- The characters in the text of a number or of no number. -/
theorem render_chars {Allowed : Char → Prop} (figures : ∀ c, Figure c → Allowed c)
    (names : ∀ c ∈ "-Infinity".toList ++ "BadNumber".toList, Allowed c) (x : Floating width) :
    ∀ c ∈ render x, Allowed c := by
  obtain ⟨infinity, badNumber⟩ := List.forall_mem_append.mp names
  cases number : x.isNaN with
  | true => exact render_of_isNaN number ▸ badNumber
  | false =>
    rcases render_cases number with ⟨-, text⟩ | ⟨-, text⟩
    · exact fun c member => figures c (renderFinite_figures x c (text ▸ member))
    · rw [text]
      split
      next => exact infinity
      next => exact (List.forall_mem_cons.mp infinity).2

/-- Every number is read back from its text. -/
theorem parse_render (number : x.isNaN = false) : parse (render x) = some x := by
  rcases render_cases number with ⟨finite, text⟩ | ⟨infinite, text⟩
  · have other : render x ≠ "BadNumber".toList := by
      intro same
      have figure := renderFinite_figures x 'B' (by rw [← text, same]; decide)
      revert figure
      decide
    rw [parse, if_neg other, text, read?_renderFinite finite]
  · rw [text, infinite]
    cases x.negative <;> rfl

/-- What is no number has one text, and one pattern is read from that. -/
theorem parse_render_of_isNaN (none : x.isNaN = true) : parse (render x) = some (nan : Floating width) := by
  rw [render_of_isNaN none, parse, if_pos rfl]

theorem parse_render_iff : parse (render x) = some x ↔ x.isNaN = false ∨ x = nan := by
  cases number : x.isNaN with
  | true => simp [parse_render_of_isNaN number, eq_comm]
  | false => simp [parse_render number]

end Number

end Transducer
