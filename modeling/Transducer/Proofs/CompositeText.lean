import Transducer.Proofs.NumberText
import Transducer.Proofs.WeightText
import Transducer.Weight.Log
import Transducer.Weight.MinMax
import Transducer.Weight.Product
import Transducer.Weight.SignedLog
import Transducer.Weight.Tropical

/-! Composite weights as text. Splitting passes over a whole component, whatever parentheses stand in it, so the two
components of a joined text are found again, and a joined text is itself a component of greater texts. -/

namespace Transducer

namespace TextFormat

variable {format : TextFormat} {text more left right : List Char} {arity fields : Nat}

/-- The characters of the layout differ from each other. -/
def Apart (format : TextFormat) : Prop :=
  ∀ pair ∈ format.parentheses, format.separator ≠ pair.1 ∧ format.separator ≠ pair.2 ∧ pair.1 ≠ pair.2

/-- The text has none of the characters of the layout. -/
def Plain (format : TextFormat) (text : List Char) : Prop :=
  ∀ c ∈ text, c ≠ format.separator ∧ format.opens c = false ∧ format.closes c = false

theorem plain_iff : format.Plain text ↔
    text.all (fun c => c != format.separator && !format.opens c && !format.closes c) = true := by
  simp [Plain, and_assoc]

instance : Decidable (format.Plain text) := decidable_of_iff _ plain_iff.symm

/-- Where splitting stands in a text: so many parentheses are open, and so many fields have ended. -/
structure Place where
  depth : Nat := 0
  seen : Nat := 0

/-- Splitting goes over the whole text from one place to the other. -/
def Passes (format : TextFormat) (fields : Nat) (text : List Char) (start stop : Place) : Prop :=
  ∀ rest, splitFrom format fields start.depth start.seen (text ++ rest) =
    (splitFrom format fields stop.depth stop.seen rest).map fun (left, right) => (text ++ left, right)

namespace Passes

variable {start middle stop place : Place} {c : Char}

theorem nil (place : Place) : Passes format fields [] place place := by
  intro rest
  rw [List.nil_append]
  cases splitFrom format fields place.depth place.seen rest <;> rfl

theorem append (first : Passes format fields text start middle) (second : Passes format fields more middle stop) :
    Passes format fields (text ++ more) start stop := by
  intro rest
  rw [List.append_assoc, first, second]
  cases splitFrom format fields stop.depth stop.seen rest with
  | error error => rfl
  | ok pair => exact congrArg (fun front => Except.ok (front, pair.2)) (List.append_assoc ..).symm

theorem single (step : ∀ rest, splitFrom format fields start.depth start.seen (c :: rest) =
      (splitFrom format fields stop.depth stop.seen rest).map fun (left, right) => (c :: left, right)) :
    Passes format fields [c] start stop := step

theorem ordinary (notOpening : format.opens c = false) (notClosing : format.closes c = false)
    (inside : c ≠ format.separator ∨ place.depth ≠ 0) : Passes format fields [c] place place := by
  apply single
  intro rest
  have kept : ¬ (c = format.separator ∧ place.depth = 0) := by
    intro given
    exact inside.elim (fun other => other given.1) fun deep => deep given.2
  simp only [splitFrom, notOpening, notClosing, kept, Bool.false_eq_true, if_false]

theorem opening (opens : format.opens c = true) (depth seen : Nat) :
    Passes format fields [c] ⟨depth, seen⟩ ⟨depth + 1, seen⟩ := by
  apply single
  intro rest
  simp only [splitFrom, opens, if_true]

theorem closing (notOpening : format.opens c = false) (closes : format.closes c = true) (depth seen : Nat) :
    Passes format fields [c] ⟨depth + 1, seen⟩ ⟨depth, seen⟩ := by
  apply single
  intro rest
  simp [splitFrom, notOpening, closes]

theorem separator (notOpening : format.opens format.separator = false)
    (notClosing : format.closes format.separator = false) {seen : Nat} (more : seen + 1 ≠ fields) :
    Passes format fields [format.separator] ⟨0, seen⟩ ⟨0, seen + 1⟩ := by
  apply single
  intro rest
  simp [splitFrom, notOpening, notClosing, more]

theorem plain (plain : format.Plain text) (place : Place) : Passes format fields text place place := by
  induction text with
  | nil => exact nil place
  | cons c text ih =>
    obtain ⟨⟨other, notOpening, notClosing⟩, rest⟩ := List.forall_mem_cons.mp plain
    exact append (ordinary notOpening notClosing (.inl other)) (ih rest)

end Passes

/-- The text is a component with so many fields. Without parentheses splitting counts its separators, and with
parentheses it meets none outside of them. -/
structure Component (format : TextFormat) (arity : Nat) (text : List Char) : Prop where
  pos : 0 < arity
  flat : format.parentheses = none → ∀ fields seen, seen + arity ≤ fields →
    Passes format fields text ⟨0, seen⟩ ⟨0, seen + arity - 1⟩
  nested : format.parentheses ≠ none → ∀ place, Passes format 1 text place place

theorem Plain.component (plain : format.Plain text) : format.Component 1 text where
  pos := Nat.one_pos
  flat _ _ _ _ := .plain plain _
  nested _ _ := .plain plain _

namespace Apart

theorem separates (apart : format.Apart) :
    format.opens format.separator = false ∧ format.closes format.separator = false := by
  unfold opens closes
  unfold Apart at apart
  cases parentheses : format.parentheses with
  | none => exact ⟨rfl, rfl⟩
  | some pair =>
    obtain ⟨first, second, -⟩ := apart pair parentheses
    simp [first, second]

theorem component (apart : format.Apart) {other : Nat} (first : format.Component arity left)
    (second : format.Component other right) : format.Component (arity + other) (format.join left right) := by
  obtain ⟨notOpening, notClosing⟩ := apart.separates
  have pos := first.pos
  have pos' := second.pos
  constructor
  case pos => omega
  case flat =>
    intro bare fields seen room
    have joined : format.join left right = left ++ ([format.separator] ++ right) := by simp [join, bare]
    rw [joined]
    have ended : seen + arity - 1 + 1 ≠ fields := by omega
    have here := first.flat bare fields seen (by omega)
    have there := second.flat bare fields (seen + arity - 1 + 1) (by omega)
    have stop : seen + arity - 1 + 1 + other - 1 = seen + (arity + other) - 1 := by omega
    rw [stop] at there
    exact here.append ((Passes.separator notOpening notClosing ended).append there)
  case nested =>
    intro wrapped place
    obtain ⟨pair, parentheses⟩ := Option.ne_none_iff_exists'.mp wrapped
    obtain ⟨-, -, distinct⟩ := apart pair parentheses
    have joined : format.join left right =
        [pair.1] ++ (left ++ ([format.separator] ++ (right ++ [pair.2]))) := by simp [join, parentheses]
    rw [joined]
    have opens : format.opens pair.1 = true := by simp [TextFormat.opens, parentheses]
    have notOpens : format.opens pair.2 = false := by simp [TextFormat.opens, parentheses, Ne.symm distinct]
    have closes : format.closes pair.2 = true := by simp [TextFormat.closes, parentheses]
    refine (Passes.opening opens place.depth place.seen).append ((first.nested wrapped _).append ?_)
    refine (Passes.ordinary notOpening notClosing (.inr (Nat.succ_ne_zero _))).append ?_
    exact (second.nested wrapped _).append (.closing notOpens closes place.depth place.seen)

/-- The two components of a joined text are found again, and the right one may be any text. -/
theorem split_join (apart : format.Apart) (component : format.Component arity left) (right : List Char) :
    format.split (format.join left right) arity = .ok (left, right) := by
  obtain ⟨notOpening, notClosing⟩ := apart.separates
  have ended {fields seen : Nat} (last : seen + 1 = fields) :
      splitFrom format fields 0 seen (format.separator :: right) = .ok ([], right) := by
    simp [splitFrom, notOpening, notClosing, last]
  cases parentheses : format.parentheses with
  | none =>
    have joined : format.join left right = left ++ format.separator :: right := by simp [join, parentheses]
    have passed := component.flat parentheses arity 0 (by omega) (format.separator :: right)
    have last : 0 + arity - 1 + 1 = arity := by
      have pos := component.pos
      omega
    rw [ended last] at passed
    simp only [split, parentheses, joined, passed]
    exact congrArg (fun front => Except.ok (front, right)) (List.append_nil left)
  | some pair =>
    have wrapped : format.parentheses ≠ none := by simp [parentheses]
    have joined : format.join left right = pair.1 :: (left ++ format.separator :: right ++ [pair.2]) := by
      simp [join, parentheses]
    have unwrapped : unwrap? pair.1 pair.2 (format.join left right) = some (left ++ format.separator :: right) := by
      rw [joined, unwrap?, if_pos ⟨rfl, List.getLast?_concat⟩, List.dropLast_concat]
    have passed := component.nested wrapped ⟨0, 0⟩ (format.separator :: right)
    rw [ended rfl] at passed
    simp only [split, parentheses, unwrapped, passed]
    exact congrArg (fun front => Except.ok (front, right)) (List.append_nil left)

end Apart

end TextFormat

/-- The text of a weight is a component with the fields of its type, and it is read as the weight. -/
structure Weight.Restores {W : Type} [Weight W] (format : TextFormat) (w : W) : Prop where
  component : format.Component (textArity W) (render format w)
  reads : parse format (render format w) = .ok w

theorem Product.restores {V W : Type} [Weight V] [Weight W] {format : TextFormat} (apart : format.Apart)
    {w : Product V W} (first : Weight.Restores format w.first) (second : Weight.Restores format w.second) :
    Weight.Restores format w where
  component := apart.component first.component second.component
  reads := by
    have found := apart.split_join first.component (Weight.render format w.second)
    have taken : Weight.parse format (Weight.render format w) = do
        let (left, right) ← format.split (format.join (Weight.render format w.first) (Weight.render format w.second))
          (Weight.textArity V)
        return (⟨← Weight.parse format left, ← Weight.parse format right⟩ : Product V W) := rfl
    rw [taken, found]
    simp only [bind, Except.bind, first.reads, second.reads]
    rfl

namespace TextFormat

variable {format : TextFormat} {text : List Char}

/-- The layouts with a comma, bare or in round brackets. -/
def Usual (format : TextFormat) : Prop := format = {} ∨ format = { parentheses := some ('(', ')') }

theorem Usual.apart (usual : format.Usual) : format.Apart := by
  rcases usual with rfl | rfl
  · exact nofun
  · rintro pair ⟨⟩
    decide

/-- No character of a usual layout stands in the text. -/
def Clear (text : List Char) : Prop := ∀ c ∈ text, c ≠ ',' ∧ c ≠ '(' ∧ c ≠ ')'

theorem clear_iff : Clear text ↔ text.all (fun c => c != ',' && c != '(' && c != ')') = true := by
  simp [Clear, and_assoc]

instance : Decidable (Clear text) := decidable_of_iff _ clear_iff.symm

theorem Usual.plain (usual : format.Usual) (clear : Clear text) : format.Plain text := by
  intro c member
  obtain ⟨comma, opening, closing⟩ := clear c member
  rcases usual with rfl | rfl
  · exact ⟨comma, rfl, rfl⟩
  · exact ⟨comma, by simp [opens, opening], by simp [closes, closing]⟩

theorem digit_clear {value : Nat} (small : value < 10) :
    Numeral.digit value ≠ ',' ∧ Numeral.digit value ≠ '(' ∧ Numeral.digit value ≠ ')' := by
  revert value
  decide

end TextFormat

section Leaves

open TextFormat

variable {width : Width} {side : Side} {format : TextFormat}

/-- A weight with one field, in whose text nothing is taken for layout. -/
theorem Weight.Restores.of_plain {W : Type} [Weight W] {w : W} (single : textArity W = 1)
    (plain : format.Plain (render format w)) (reads : parse format (render format w) = .ok w) :
    Restores format w where
  component := single ▸ plain.component
  reads := reads

namespace Number

theorem parseAs_render {x : Floating width} (read : parse (render x) = some x) (typeName : String) :
    parseAs typeName (render x) = .ok x := by
  rw [parseAs, read]

theorem figure_clear {c : Char} (figure : Floating.Figure c) : c ≠ ',' ∧ c ≠ '(' ∧ c ≠ ')' := by
  rcases figure with rfl | rfl | ⟨value, small, rfl⟩
  · decide
  · decide
  · exact digit_clear small

theorem render_clear (x : Floating width) : Clear (render x) := by
  have names : Clear ("-Infinity".toList ++ "BadNumber".toList) := by decide
  exact render_chars (fun _ => figure_clear) names x

/-- A type that holds a number and nothing else restores what the number's text does. -/
theorem restores {W : Type} [Weight W] (make : Floating width → W) {typeName : String} {x : Floating width}
    (single : Weight.textArity W = 1) (shown : Weight.render format (make x) = render x)
    (taken : Weight.parse format (render x) = make <$> parseAs typeName (render x)) (plain : format.Plain (render x))
    (read : parse (render x) = some x) : Weight.Restores format (make x) := by
  refine .of_plain single (shown ▸ plain) ?_
  rw [shown, taken, parseAs_render read]
  rfl

end Number

theorem Tropical.restores {w : Tropical width} (plain : format.Plain (Number.render w.value))
    (read : Number.parse (Number.render w.value) = some w.value) : Weight.Restores format w :=
  Number.restores Tropical.mk rfl rfl rfl plain read

theorem Log.restores {w : Log width} (plain : format.Plain (Number.render w.value))
    (read : Number.parse (Number.render w.value) = some w.value) : Weight.Restores format w :=
  Number.restores Log.mk rfl rfl rfl plain read

theorem MinMax.restores {w : MinMax width} (plain : format.Plain (Number.render w.value))
    (read : Number.parse (Number.render w.value) = some w.value) : Weight.Restores format w :=
  Number.restores MinMax.mk rfl rfl rfl plain read

namespace SignedLog

theorem readSign?_signText (negative : Bool) : readSign? (signText negative) = some negative := by
  cases negative <;> decide

/-- A signed logarithm is a composite of its sign and its number. -/
theorem parse_render (apart : format.Apart) {w : SignedLog width} {value : Floating width}
    (sign : format.Plain (signText w.negative)) (read : Number.parse (Number.render w.value) = some value) :
    Weight.parse format (Weight.render format w) = .ok (make w.negative value) := by
  have found := apart.split_join sign.component (Number.render w.value)
  change SignedLog.parse format (format.join (signText w.negative) (Number.render w.value)) = _
  rw [SignedLog.parse, found]
  simp only [bind, Except.bind, readSign?_signText, read]
  rfl

theorem restores (apart : format.Apart) {w : SignedLog width} (sign : format.Plain (signText w.negative))
    (plain : format.Plain (Number.render w.value)) (read : Number.parse (Number.render w.value) = some w.value) :
    Weight.Restores format w where
  component := apart.component sign.component plain.component
  reads := by
    have same : make w.negative w.value = w := make_eq_iff.mpr (.inr rfl)
    rw [parse_render apart sign read, same]

end SignedLog

theorem Boolean.restores {w : Boolean} (plain : format.Plain w.render) : Weight.Restores format w := by
  refine .of_plain rfl plain ?_
  obtain ⟨back, read, rfl⟩ := Boolean.legible.reads w
  exact read

theorem LabelString.restores {w : LabelString side} (plain : format.Plain w.render) : Weight.Restores format w := by
  refine .of_plain rfl plain ?_
  obtain ⟨back, read, rfl⟩ := (LabelString.legible side).reads w
  exact read

theorem Boolean.render_clear (w : Boolean) : Clear w.render := by
  rcases w with ⟨_ | _ | _⟩ <;> decide

theorem LabelString.render_clear (w : LabelString side) : Clear w.render := by
  have names : Clear "Epsilon".toList ∧ Clear "Infinity".toList ∧ Clear "BadString".toList := by decide
  match w with
  | labels [] => exact names.1
  | infinity => exact names.2.1
  | bad => exact names.2.2
  | labels (label :: word) =>
    intro c member
    rcases renderLabels_plain (label :: word) c member with rfl | ⟨value, small, rfl⟩
    · decide
    · exact digit_clear small

end Leaves

end Transducer
