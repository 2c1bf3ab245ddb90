import Transducer.Proofs.CompositeText
import Transducer.Weight.Catalog

/-! Nested composites as text. A weight of a product type is laid out around its leaves. If no character of the
layout occurs in a leaf then the nesting is found again from the layout alone, to any depth and on either side. -/

namespace Transducer

namespace BuiltIn

/-- The numbers that a weight holds. -/
def numbers : (type : BuiltIn) → type.Carrier → List (Sigma Floating)
  | tropical width, w => [⟨width, w.value⟩]
  | log width, w => [⟨width, w.value⟩]
  | signedLog width, w => [⟨width, w.value⟩]
  | minMax width, w => [⟨width, w.value⟩]
  | boolean, _ => []
  | labelString _, _ => []

/-- The texts that a weight puts into the layout. A signed logarithm puts two, its sign and its number. -/
def leaves : (type : BuiltIn) → type.Carrier → List (List Char)
  | tropical _, w => [Number.render w.value]
  | log _, w => [Number.render w.value]
  | signedLog _, w => [SignedLog.signText w.negative, Number.render w.value]
  | minMax _, w => [Number.render w.value]
  | boolean, w => [w.render]
  | labelString _, w => [w.render]

variable {type : BuiltIn} {format : TextFormat} {w : type.Carrier}

theorem restores (apart : format.Apart) (plain : ∀ leaf ∈ type.leaves w, format.Plain leaf)
    (read : ∀ number ∈ type.numbers w, Number.parse (Number.render number.2) = some number.2) :
    Weight.Restores format w := by
  cases type with
  | tropical width => exact Tropical.restores (plain _ List.mem_cons_self) (read ⟨_, w.value⟩ List.mem_cons_self)
  | log width => exact Log.restores (plain _ List.mem_cons_self) (read ⟨_, w.value⟩ List.mem_cons_self)
  | signedLog width =>
    obtain ⟨sign, number⟩ := List.forall_mem_cons.mp plain
    exact SignedLog.restores apart sign (number _ List.mem_cons_self) (read ⟨_, w.value⟩ List.mem_cons_self)
  | minMax width => exact MinMax.restores (plain _ List.mem_cons_self) (read ⟨_, w.value⟩ List.mem_cons_self)
  | boolean => exact Boolean.restores (plain _ List.mem_cons_self)
  | labelString side => exact LabelString.restores (plain _ List.mem_cons_self)

end BuiltIn

namespace WeightType

def numbers : (type : WeightType) → type.Carrier → List (Sigma Floating)
  | builtIn type, w => type.numbers w
  | product first second, w => first.numbers w.first ++ second.numbers w.second

/-- The texts that a weight puts into the layout, from left to right. -/
def leaves : (type : WeightType) → type.Carrier → List (List Char)
  | builtIn type, w => type.leaves w
  | product first second, w => first.leaves w.first ++ second.leaves w.second

variable {type : WeightType} {format : TextFormat} {w : type.Carrier}

theorem restores (apart : format.Apart) (plain : ∀ leaf ∈ type.leaves w, format.Plain leaf)
    (read : ∀ number ∈ type.numbers w, Number.parse (Number.render number.2) = some number.2) :
    Weight.Restores format w := by
  induction type with
  | builtIn type => exact BuiltIn.restores apart plain read
  | product first second ihFirst ihSecond =>
    obtain ⟨plainFirst, plainSecond⟩ := List.forall_mem_append.mp plain
    obtain ⟨readFirst, readSecond⟩ := List.forall_mem_append.mp read
    exact Product.restores apart (ihFirst plainFirst readFirst) (ihSecond plainSecond readSecond)

/-- A weight of any type is read back from its text if the characters of the layout differ and occur in no leaf, and
if its numbers are read back, as all are but patterns that are no number and not the one that stands for these. -/
theorem nested_restores :
    (∀ {width : Width} {x : Floating width},
      Number.parse (Number.render x) = some x ↔ x.isNaN = false ∨ x = .nan) ∧
    ∀ {type : WeightType} {format : TextFormat} {w : type.Carrier}, format.Apart →
      (∀ leaf ∈ type.leaves w, format.Plain leaf) →
      (∀ number ∈ type.numbers w, Number.parse (Number.render number.2) = some number.2) →
      Weight.parse format (Weight.render format w) = .ok w :=
  ⟨Number.parse_render_iff, fun apart plain read => (restores apart plain read).reads⟩

/-- A signed logarithm beside a truth value, and both beside a string and a value that is no number. -/
abbrev bundleType : WeightType :=
  .product (.product (.builtIn (.signedLog .single)) (.builtIn .boolean))
    (.product (.builtIn (.labelString .right)) (.builtIn (.tropical .double)))

def bundle : bundleType.Carrier := ⟨⟨.make true (.ofInt 1), .one⟩, ⟨.labels [7, 8], ⟨.nan⟩⟩⟩

theorem bundle_restored :
    let wrapped : TextFormat := { separator := '·', parentheses := some ('⟨', '⟩') }
    let bare : TextFormat := { separator := ';' }
    Weight.render wrapped bundle = "⟨⟨⟨-1·1⟩·1⟩·⟨7_8·BadNumber⟩⟩".toList ∧
      Weight.parse wrapped (Weight.render wrapped bundle) = .ok bundle ∧
      Weight.render bare bundle = "-1;1;1;7_8;BadNumber".toList ∧
      Weight.parse bare (Weight.render bare bundle) = .ok bundle := by
  intro wrapped bare
  obtain ⟨readBack, restore⟩ := nested_restores
  have apart : wrapped.Apart := by
    rintro pair ⟨⟩
    decide
  have known : ∀ number ∈ bundleType.numbers bundle, number.2.isNaN = false ∨ number.2 = .nan := by decide +kernel
  have read : ∀ number ∈ bundleType.numbers bundle, Number.parse (Number.render number.2) = some number.2 :=
    fun number member => readBack.mpr (known number member)
  exact ⟨by decide +kernel, restore apart (by decide +kernel) read,
    by decide +kernel, restore nofun (by decide +kernel) read⟩

end WeightType

end Transducer
