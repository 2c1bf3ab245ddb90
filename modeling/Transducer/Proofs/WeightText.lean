import Transducer.Proofs.TextFields
import Transducer.Weight.Boolean

/-! Weights that come back from their text. Boolean weights and label strings do, whatever their value. -/

namespace Transducer

/-- The text of a weight is one field, and reading it gives a weight that counts as the same. -/
structure Weight.Legible (W : Type) [Weight W] (same : W → W → Prop) : Prop where
  word : ∀ w : W, Text.Word (display w)
  reads : ∀ w : W, ∃ back, parse {} (display w) = .ok back ∧ same w back

theorem Boolean.legible : Weight.Legible Boolean (· = ·) where
  word w := by
    rcases w with ⟨_ | _ | _⟩ <;> decide
  reads w := by
    rcases w with ⟨_ | _ | _⟩
    · exact ⟨noWeight, rfl, rfl⟩
    · exact ⟨zero, rfl, rfl⟩
    · exact ⟨one, rfl, rfl⟩

namespace LabelString

variable {side : Side} {word : List Label}

theorem renderLabel_decimal (label : Label) : Numeral.Decimal (renderLabel label) := Numeral.digits_decimal label.toNat

theorem prepend_nothing (parts : List (List Char)) : parts.modifyHead (([] : List Char).reverse ++ ·) = parts := by
  cases parts <;> rfl

/-- What has been read of the first part stands in front of it. -/
theorem partsFrom_eq (current text : List Char) :
    partsFrom current text = (text.splitOn '_').modifyHead (current.reverse ++ ·) := by
  induction text generalizing current with
  | nil => simp [partsFrom]
  | cons c text ih =>
    rw [partsFrom, List.splitOn_cons_eq_if_modifyHead]
    by_cases cut : c = '_'
    · rw [if_pos cut, if_pos (beq_iff_eq.mpr cut), ih, prepend_nothing, List.modifyHead_cons, List.append_nil]
    · rw [if_neg cut, if_neg (mt beq_iff_eq.mp cut), ih, List.modifyHead_modifyHead]
      congr 1
      funext part
      simp

theorem partsFrom_nil (text : List Char) : partsFrom [] text = text.splitOn '_' := by
  rw [partsFrom_eq, prepend_nothing]

theorem underscore_not_mem (label : Label) : '_' ∉ renderLabel label := by
  intro member
  obtain ⟨value, small, same⟩ := (renderLabel_decimal label).2 _ member
  exact (Numeral.digit_spec value small).2.2.2 same.symm

/-- The parts between the underscores are the texts of the labels. -/
theorem partsFrom_renderLabels (some : word ≠ []) : partsFrom [] (renderLabels word) = word.map renderLabel := by
  rw [partsFrom_nil]
  induction word with
  | nil => exact absurd rfl some
  | cons label word ih =>
    cases word with
    | nil => exact List.splitOn_eq_singleton (underscore_not_mem label)
    | cons next word =>
      rw [renderLabels, List.splitOn_append_cons_self_of_not_mem (underscore_not_mem label),
        ih (List.cons_ne_nil next word)]
      · rfl
      · exact List.cons_ne_nil next word

theorem readWord?_renderLabel (label : Label) : Numeral.readWord? (renderLabel label) = some label := by
  rw [renderLabel, Numeral.readWord?_digits label.toNat_lt, UInt32.ofNat_toNat]

theorem mapM_readWord? (word : List Label) : (word.map renderLabel).mapM Numeral.readWord? = some word := by
  induction word with
  | nil => rfl
  | cons label word ih => rw [List.map_cons, List.mapM_cons, readWord?_renderLabel, ih]; rfl

/-- A character in the text of labels. -/
def Plain (c : Char) : Prop := c = '_' ∨ ∃ value < 10, c = Numeral.digit value

instance : DecidablePred Plain := fun _ => inferInstanceAs (Decidable (_ ∨ _))

theorem renderLabels_plain (word : List Label) : ∀ c ∈ renderLabels word, Plain c := by
  have single (label : Label) : ∀ c ∈ renderLabel label, Plain c := fun c member =>
    .inr ((renderLabel_decimal label).2 c member)
  induction word with
  | nil => exact List.forall_mem_nil _
  | cons label word ih =>
    cases word with
    | nil => exact single label
    | cons next word =>
      rw [renderLabels]
      · exact List.forall_mem_append.mpr ⟨single label, List.forall_mem_cons.mpr ⟨.inl rfl, ih⟩⟩
      · exact List.cons_ne_nil next word

theorem renderLabels_word (some : word ≠ []) : Text.Word (renderLabels word) where
  nonempty none := by
    have parts := partsFrom_renderLabels some
    rw [none, partsFrom] at parts
    cases word with
    | nil => exact some rfl
    | cons label word => exact (renderLabel_decimal label).1 (List.cons.inj parts).1.symm
  visible c member := by
    rcases renderLabels_plain word c member with rfl | ⟨value, small, rfl⟩
    · decide
    · exact (Numeral.digit_spec value small).2.1

/-- Labels are never taken for one of the names. -/
theorem renderLabels_ne {name : List Char} (named : (name.all fun c => decide (Plain c)) = false) :
    renderLabels word ≠ name := by
  rintro rfl
  have plain : (renderLabels word).all (fun c => decide (Plain c)) = true :=
    List.all_eq_true.mpr fun c member => decide_eq_true (renderLabels_plain word c member)
  cases named.symm.trans plain

theorem parse_renderLabels (some : word ≠ []) : parse (renderLabels word) = .ok (labels word : LabelString side) := by
  rw [parse, if_neg (renderLabels_ne (by decide)), if_neg (renderLabels_ne (by decide)),
    if_neg (renderLabels_ne (by decide)), partsFrom_renderLabels some, mapM_readWord?]

theorem legible (side : Side) : Weight.Legible (LabelString side) (· = ·) where
  word w := by
    have epsilon : Text.Word "Epsilon".toList := by decide
    have top : Text.Word "Infinity".toList := by decide
    have none : Text.Word "BadString".toList := by decide
    match w with
    | labels [] => exact epsilon
    | labels (label :: word) => exact renderLabels_word (List.cons_ne_nil label word)
    | infinity => exact top
    | bad => exact none
  reads w := by
    match w with
    | labels [] => exact ⟨labels [], rfl, rfl⟩
    | labels (label :: word) => exact ⟨_, parse_renderLabels (List.cons_ne_nil label word), rfl⟩
    | infinity => exact ⟨infinity, rfl, rfl⟩
    | bad => exact ⟨bad, rfl, rfl⟩

end LabelString

end Transducer
