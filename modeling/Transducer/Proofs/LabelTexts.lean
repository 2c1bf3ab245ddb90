import Transducer.Proofs.ListingGrammar

/-! The texts of label strings. A text is read if it is one of three names or if all its parts between underscores are
numerals. No name is made of numerals, so every text has one meaning, and what is written is read as what it was. -/

namespace Transducer.LabelString

variable {side : Side} {text : List Char} {word : List Label}

/-- The names of infinity, the bad string and the empty string. -/
def names : List (List Char) := ["Infinity".toList, "BadString".toList, "Epsilon".toList]

/-- Cut at every underscore the text is numerals, and they denote the labels in their order. -/
def Enumerates (text : List Char) (word : List Label) : Prop :=
  List.Forall₂ Numeral.Denotes (text.splitOn '_') word

/-- What a text means, by a name or by numerals. -/
inductive Means (text : List Char) : LabelString side → Prop where
  | infinity (named : text = "Infinity".toList) : Means text infinity
  | bad (named : text = "BadString".toList) : Means text bad
  | empty (named : text = "Epsilon".toList) : Means text (labels [])
  | labels {word : List Label} (enumerates : Enumerates text word) : Means text (labels word)

theorem mapM_eq_some {α β : Type} {read : α → Option β} {items : List α} {values : List β} :
    items.mapM read = some values ↔ List.Forall₂ (fun item value => read item = some value) items values := by
  induction items generalizing values with
  | nil => simp [eq_comm]
  | cons item items ih =>
    simp only [List.mapM_cons, Option.bind_eq_bind, Option.bind_eq_some_iff, Option.pure_def, Option.some.injEq, ih,
      List.forall₂_cons_left_iff]
    constructor
    · rintro ⟨value, here, values, later, rfl⟩
      exact ⟨value, values, here, later, rfl⟩
    · rintro ⟨value, values, here, later, rfl⟩
      exact ⟨value, here, values, later, rfl⟩

/-- The parts are read one by one, and all of them must be numerals. -/
theorem readParts_eq_some : (partsFrom [] text).mapM Numeral.readWord? = some word ↔ Enumerates text word := by
  rw [partsFrom_nil, mapM_eq_some, Enumerates]
  simp only [Numeral.readWord?_eq_some]

theorem exists_enumerates :
    (∃ word, Enumerates text word) ↔ ∀ part ∈ text.splitOn '_', ∃ label, Numeral.Denotes part label := by
  unfold Enumerates
  induction text.splitOn '_' with
  | nil => simp
  | cons part parts ih =>
    simp only [List.forall₂_cons_left_iff, List.forall_mem_cons, ← ih]
    constructor
    · rintro ⟨_, label, word, here, later, -⟩
      exact ⟨⟨label, here⟩, word, later⟩
    · rintro ⟨⟨label, here⟩, word, later⟩
      exact ⟨_, label, word, here, later, rfl⟩

/-- Letters are no digits. -/
theorem not_enumerates_of_name (named : text ∈ names) : ¬ Enumerates text word := by
  have unread : ∀ text ∈ names, (partsFrom [] text).mapM Numeral.readWord? = none := by decide
  intro enumerates
  cases (unread text named).symm.trans (readParts_eq_some.mpr enumerates)

theorem Enumerates.ne_nil (enumerates : Enumerates text word) : word ≠ [] := by
  rintro rfl
  exact List.splitOn_ne_nil '_' text (List.forall₂_nil_right_iff.mp enumerates)

theorem enumerates_renderLabels (some : word ≠ []) : Enumerates (renderLabels word) word := by
  rw [← readParts_eq_some, partsFrom_renderLabels some, mapM_readWord?]

/-- A text that is no name is read part by part. -/
theorem parse_of_enumerates (enumerates : Enumerates text word) :
    parse text = .ok (labels word : LabelString side) := by
  have unnamed : text ∉ names := fun named => not_enumerates_of_name named enumerates
  simp only [names, List.mem_cons, List.not_mem_nil, or_false, not_or] at unnamed
  rw [parse, if_neg unnamed.1, if_neg unnamed.2.1, if_neg unnamed.2.2, readParts_eq_some.mpr enumerates]

theorem parse_ok {w : LabelString side} : parse text = .ok w ↔ Means text w := by
  constructor
  · intro read
    unfold parse at read
    split_ifs at read with top none empty
    · exact Except.ok.inj read ▸ .infinity top
    · exact Except.ok.inj read ▸ .bad none
    · exact Except.ok.inj read ▸ .empty empty
    · split at read
      next word parts => exact Except.ok.inj read ▸ .labels (readParts_eq_some.mp parts)
      next => cases read
  · intro meant
    cases meant with
    | infinity named => exact named ▸ rfl
    | bad named => exact named ▸ rfl
    | empty named => exact named ▸ rfl
    | labels enumerates => exact parse_of_enumerates enumerates

/-- A text that means nothing is refused as it stands. -/
theorem parse_error (text : List Char) :
    (∃ w : LabelString side, parse text = .ok w) ∨
      (parse text : Except WeightTextError (LabelString side)) = .error (.invalid (typeName side) text) := by
  unfold parse
  split_ifs
  · exact .inl ⟨infinity, rfl⟩
  · exact .inl ⟨bad, rfl⟩
  · exact .inl ⟨labels [], rfl⟩
  · cases (partsFrom [] text).mapM Numeral.readWord? with
    | some word => exact .inl ⟨labels word, rfl⟩
    | none => exact .inr rfl

theorem exists_means (side : Side) :
    (∃ w : LabelString side, Means text w) ↔
      text ∈ names ∨ ∀ part ∈ text.splitOn '_', ∃ label, Numeral.Denotes part label := by
  rw [← exists_enumerates]
  constructor
  · rintro ⟨w, meant⟩
    cases meant with
    | infinity named | bad named | empty named => exact .inl (by simp [names, named])
    | labels enumerates => exact .inr ⟨_, enumerates⟩
  · rintro (named | ⟨word, enumerates⟩)
    · simp only [names, List.mem_cons, List.not_mem_nil, or_false] at named
      rcases named with named | named | named
      · exact ⟨_, .infinity named⟩
      · exact ⟨_, .bad named⟩
      · exact ⟨_, .empty named⟩
    · exact ⟨_, .labels enumerates⟩

theorem parse_render (w : LabelString side) : parse (render w) = .ok w := by
  obtain ⟨back, read, rfl⟩ := (legible side).reads w
  exact read

theorem render_injective : Function.Injective (render : LabelString side → List Char) := by
  intro v w same
  exact Except.ok.inj ((parse_render v).symm.trans (same ▸ parse_render w))

theorem render_mem_names : render (labels word : LabelString side) ∈ names ↔ word = [] := by
  constructor
  · intro named
    cases word with
    | nil => rfl
    | cons label word =>
      have numerals := enumerates_renderLabels (List.cons_ne_nil label word)
      exact absurd numerals (not_enumerates_of_name named)
  · rintro rfl
    exact .tail _ (.tail _ (.head []))

/-- Every label string is read back from its text, so no two of them share one. The texts that are read are three names
and those that are numerals between all their underscores, and they mean just what is read from them. Other texts are
refused. Labels are never written as a name, unless there are none, and what is read as numerals is no name and has a
label. -/
theorem labelTexts_settle (side : Side) (format : TextFormat) :
    (∀ w : LabelString side, Weight.parse format (Weight.render format w) = .ok w) ∧
    (∀ text, (∃ w : LabelString side, Weight.parse format text = .ok w) ↔
      text ∈ names ∨ ∀ part ∈ text.splitOn '_', ∃ label, Numeral.Denotes part label) ∧
    (∀ text (w : LabelString side), Weight.parse format text = .ok w ↔ Means text w) ∧
    (∀ text, (∃ w : LabelString side, Weight.parse format text = .ok w) ∨
      (Weight.parse format text : Except _ (LabelString side)) = .error (.invalid (typeName side) text)) ∧
    Function.Injective (Weight.render format : LabelString side → List Char) ∧
    (∀ word, Weight.render format (labels word : LabelString side) ∈ names ↔ word = []) ∧
    ∀ text word, Enumerates text word → text ∉ names ∧ word ≠ [] := by
  refine ⟨parse_render, fun text => ?_, fun text w => parse_ok, parse_error, render_injective,
    fun word => render_mem_names, fun text word enumerates => ⟨fun named => ?_, enumerates.ne_nil⟩⟩
  · rw [← exists_means side]
    exact exists_congr fun w => parse_ok
  · exact not_enumerates_of_name named enumerates

/-- Zeros and plus signs in front of the numerals do not count, but every part must be a numeral. -/
example : parse "+04_5".toList = .ok (labels [4, 5] : LabelString .left) ∧
    (parse "4__5".toList : Except _ (LabelString .left)) = .error (.invalid "left_string" "4__5".toList) := by
  decide

end Transducer.LabelString
