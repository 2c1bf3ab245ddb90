import Transducer.Proofs.CompositeText
import Transducer.Proofs.OrderLaws
import Transducer.Weight.Catalog

/-! Weights of the built-in types as fields of a listing. Each is written without blanks and is read as a weight that
counts as the same, where one zero counts as the other and nothing tells apart what is no number. -/

namespace Transducer

namespace Floating

variable {width : Width} {x y : Floating width}

def Alike (x y : Floating width) : Prop := x.equal y = true ∨ x.isNaN = true ∧ y.isNaN = true

theorem isNaN_nan : (nan : Floating width).isNaN = true := by cases width <;> rfl

theorem Alike.refl (x : Floating width) : x.Alike x := by
  cases none : x.isNaN with
  | true => exact .inr ⟨none, none⟩
  | false => exact .inl (equal_iff_rank.mpr ⟨none, none, rfl⟩)

end Floating

namespace Number

open Floating

variable {width : Width}

/-- The text of a number is read as that number, and the text of no number as none. -/
theorem parse_render_alike (x : Floating width) : ∃ back, parse (render x) = some back ∧ x.Alike back := by
  cases none : x.isNaN with
  | true => exact ⟨nan, parse_render_of_isNaN none, .inr ⟨none, isNaN_nan⟩⟩
  | false => exact ⟨x, parse_render none, .refl x⟩

theorem figure_visible {c : Char} (figure : Figure c) : Text.isBlank c = false := by
  rcases figure with rfl | rfl | ⟨value, small, rfl⟩
  · decide
  · decide
  · exact (Numeral.digit_spec value small).2.1

theorem render_word (x : Floating width) : Text.Word (render x) where
  nonempty empty := by
    obtain ⟨back, read, -⟩ := parse_render_alike x
    rw [empty] at read
    cases read
  visible := by
    have names : Text.Word ("-Infinity".toList ++ "BadNumber".toList) := by decide
    exact render_chars (fun _ => figure_visible) names.visible x

end Number

namespace BuiltIn

/-- The weights differ at most in what comparing numbers does not see. -/
def Alike : (type : BuiltIn) → type.Carrier → type.Carrier → Prop
  | tropical _, v, w => v.value.Alike w.value
  | log _, v, w => v.value.Alike w.value
  | signedLog _, v, w => v.negative = w.negative ∧ v.value.Alike w.value
  | minMax _, v, w => v.value.Alike w.value
  | boolean, v, w => v = w
  | labelString _, v, w => v = w

variable {width : Width} {type : BuiltIn}

theorem alike_of_equal {v w : type.Carrier} (same : Weight.equal v w = true) : type.Alike v w := by
  cases type with
  | tropical | log | minMax => exact .inl same
  | signedLog =>
    obtain ⟨sign, value⟩ := Bool.and_eq_true_iff.mp same
    exact ⟨eq_of_beq sign, .inl value⟩
  | boolean => exact eq_of_beq same
  | labelString => exact eq_of_beq same

/-- A type that holds a number and nothing else is read as that number is. -/
theorem legible_number {W : Type} [Weight W] {value : W → Floating width} (make : Floating width → W)
    {typeName : String} (shown : ∀ w, Weight.display w = Number.render (value w))
    (taken : ∀ text, Weight.parse {} text = make <$> Number.parseAs typeName text) (made : ∀ x, value (make x) = x) :
    Weight.Legible W fun v w => (value v).Alike (value w) where
  word w := shown w ▸ Number.render_word (value w)
  reads w := by
    obtain ⟨back, read, alike⟩ := Number.parse_render_alike (value w)
    refine ⟨make back, ?_, (made back).symm ▸ alike⟩
    rw [shown, taken, Number.parseAs, read]
    rfl

theorem parse_signedLog {w : SignedLog width} {value : Floating width}
    (read : Number.parse (Number.render w.value) = some value) :
    Weight.parse {} (Weight.display w) = .ok (SignedLog.make w.negative value) := by
  have usual : TextFormat.Usual {} := .inl rfl
  have clear : TextFormat.Clear (SignedLog.signText w.negative) := by cases w.negative <;> decide
  exact SignedLog.parse_render usual.apart (usual.plain clear) read

theorem legible_signedLog : Weight.Legible (SignedLog width) (Alike (.signedLog width)) where
  word w := by
    have sign : Text.Word (SignedLog.signText w.negative) := by cases w.negative <;> decide
    have number := Number.render_word w.value
    have text : Weight.display w = SignedLog.signText w.negative ++ ',' :: Number.render w.value := rfl
    rw [text]
    refine ⟨List.append_ne_nil_of_left_ne_nil sign.nonempty _, ?_⟩
    exact List.forall_mem_append.mpr ⟨sign.visible, List.forall_mem_cons.mpr ⟨by decide, number.visible⟩⟩
  reads w := by
    cases none : w.value.isNaN with
    | true =>
      have signed : w.negative = (SignedLog.make w.negative (Floating.nan : Floating width)).negative := by
        cases width <;> exact (Bool.and_true _).symm
      exact ⟨_, parse_signedLog (Number.parse_render_of_isNaN none), signed, .inr ⟨none, Floating.isNaN_nan⟩⟩
    | false =>
      have same : SignedLog.make w.negative w.value = w := SignedLog.make_eq_iff.mpr (.inr rfl)
      have read := parse_signedLog (Number.parse_render none)
      rw [same] at read
      exact ⟨w, read, rfl, .refl _⟩

/-- Every weight of a built-in type is a field that is read as a weight like it. -/
theorem legible (type : BuiltIn) : Weight.Legible type.Carrier type.Alike := by
  cases type with
  | tropical width => exact legible_number Tropical.mk (fun _ => rfl) (fun _ => rfl) fun _ => rfl
  | log width => exact legible_number Log.mk (fun _ => rfl) (fun _ => rfl) fun _ => rfl
  | signedLog width => exact legible_signedLog
  | minMax width => exact legible_number MinMax.mk (fun _ => rfl) (fun _ => rfl) fun _ => rfl
  | boolean => exact Boolean.legible
  | labelString side => exact LabelString.legible side

end BuiltIn

end Transducer
