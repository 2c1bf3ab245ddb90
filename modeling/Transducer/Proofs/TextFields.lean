import Transducer.Listing.Print

/-! Text in lines and fields. Words without a blank come back from a line with tabs between them, lines come back
from a text where each has its end, and numbers come back from their digits. -/

namespace Transducer

namespace Text

/-- A text that is a single field. -/
structure Word (text : List Char) : Prop where
  nonempty : text ≠ []
  visible : ∀ c ∈ text, isBlank c = false

variable {text rest current : List Char} {words : List (List Char)}

theorem word_iff : Word text ↔ text ≠ [] ∧ text.all fun c => !isBlank c := by
  constructor
  · exact fun word => ⟨word.nonempty, by simpa using word.visible⟩
  · exact fun given => ⟨given.1, by simpa using given.2⟩

instance : Decidable (Word text) := decidable_of_iff _ word_iff.symm

theorem fieldsFrom_visible (visible : ∀ c ∈ text, isBlank c = false) :
    fieldsFrom current (text ++ rest) = fieldsFrom (text.reverse ++ current) rest := by
  induction text generalizing current with
  | nil => rfl
  | cons c text ih =>
    obtain ⟨first, others⟩ := List.forall_mem_cons.mp visible
    rw [List.cons_append, fieldsFrom, first, if_neg Bool.false_ne_true, ih others]
    simp

/-- A word that is followed by a blank or by nothing is a field. -/
theorem fields_word_cons (word : Word text) {blank : Char} (blanks : isBlank blank = true) :
    fields (text ++ blank :: rest) = text :: fields rest := by
  have begun : text.reverse ≠ [] := by simpa using word.nonempty
  rw [fields, fieldsFrom_visible word.visible, List.append_nil, fieldsFrom, blanks, if_pos rfl, if_neg begun,
    List.reverse_reverse, fields]

theorem fields_word (word : Word text) : fields text = [text] := by
  have begun : text.reverse ≠ [] := by simpa using word.nonempty
  have whole : fieldsFrom [] (text ++ []) = fieldsFrom (text.reverse ++ []) [] := fieldsFrom_visible word.visible
  rw [List.append_nil, List.append_nil] at whole
  rw [fields, whole, fieldsFrom, if_neg begun, List.reverse_reverse]

theorem word_reverse (begun : current ≠ []) (visible : ∀ c ∈ current, isBlank c = false) : Word current.reverse :=
  ⟨by simpa using begun, by simpa using visible⟩

theorem word_of_mem_fieldsFrom {field : List Char} (visible : ∀ c ∈ current, isBlank c = false)
    (member : field ∈ fieldsFrom current text) : Word field := by
  induction text generalizing current with
  | nil =>
    unfold fieldsFrom at member
    split at member
    next => cases member
    next begun => exact List.mem_singleton.mp member ▸ word_reverse begun visible
  | cons c text ih =>
    unfold fieldsFrom at member
    split at member
    next blank =>
      split at member
      next => exact ih (by simp) member
      next begun =>
        rcases List.mem_cons.mp member with rfl | later
        · exact word_reverse begun visible
        · exact ih (by simp) later
    next seen =>
      have other : isBlank c = false := Bool.eq_false_iff.mpr seen
      exact ih (List.forall_mem_cons.mpr ⟨other, visible⟩) member

/-- Every field is a word. -/
theorem word_of_mem_fields {field : List Char} (member : field ∈ fields text) : Word field :=
  word_of_mem_fieldsFrom (List.forall_mem_nil _) member

theorem fieldsFrom_eq_nil : fieldsFrom current text = [] ↔ current = [] ∧ ∀ c ∈ text, isBlank c = true := by
  induction text generalizing current with
  | nil => simp [fieldsFrom]
  | cons c text ih =>
    cases seen : isBlank c <;> by_cases begun : current = [] <;> simp [fieldsFrom, seen, begun, ih]

/-- A line without a field has nothing but blanks in it. -/
theorem fields_eq_nil : fields text = [] ↔ ∀ c ∈ text, isBlank c = true := by
  rw [fields, fieldsFrom_eq_nil, eq_self, true_and]

/-- The fields with tabs between them. -/
def tabbed : List (List Char) → List Char
  | [] => []
  | [field] => field
  | field :: rest => field ++ '\t' :: tabbed rest

theorem fields_tabbed (all : ∀ word ∈ words, Word word) : fields (tabbed words) = words := by
  induction words with
  | nil => rfl
  | cons word words ih =>
    obtain ⟨first, others⟩ := List.forall_mem_cons.mp all
    cases words with
    | nil => exact fields_word first
    | cons next words => rw [tabbed, fields_word_cons first (by decide), ih others]; simp

/-- A text without the characters that end a line. -/
def OneLine (text : List Char) : Prop := '\n' ∉ text ∧ '\r' ∉ text

theorem Word.oneLine (word : Word text) : OneLine text := by
  have absent {c : Char} (blank : isBlank c = true) : c ∉ text := fun member => by
    cases blank.symm.trans (word.visible c member)
  exact ⟨absent (by decide), absent (by decide)⟩

theorem tabbed_oneLine (all : ∀ word ∈ words, Word word) : OneLine (tabbed words) := by
  induction words with
  | nil => exact ⟨List.not_mem_nil, List.not_mem_nil⟩
  | cons word words ih =>
    obtain ⟨first, others⟩ := List.forall_mem_cons.mp all
    cases words with
    | nil => exact first.oneLine
    | cons next words =>
      obtain ⟨feed, carriage⟩ := ih others
      simpa [tabbed, OneLine] using ⟨⟨first.oneLine.1, feed⟩, first.oneLine.2, carriage⟩

theorem linesFrom_feedless (feedless : '\n' ∉ text) :
    linesFrom current (text ++ '\n' :: rest) = (dropReturn (text.reverse ++ current)).reverse :: lines rest := by
  induction text generalizing current with
  | nil => rfl
  | cons c text ih =>
    obtain ⟨other, later⟩ := not_or.mp (mt List.mem_cons.mpr feedless)
    rw [List.cons_append, linesFrom, ih later]
    · simp
    · exact Ne.symm other

theorem lines_cons (whole : OneLine text) : lines (text ++ '\n' :: rest) = text :: lines rest := by
  have kept : dropReturn text.reverse = text.reverse := by
    unfold dropReturn
    split
    next ended =>
      have member : '\r' ∈ text.reverse := ended ▸ List.mem_cons_self
      exact absurd (List.mem_reverse.mp member) whole.2
    next => rfl
  rw [lines, linesFrom_feedless whole.1, List.append_nil, kept, List.reverse_reverse]

theorem lines_flatMap {texts : List (List Char)} (whole : ∀ text ∈ texts, OneLine text) :
    lines (texts.flatMap fun text => text ++ ['\n']) = texts := by
  induction texts with
  | nil => rfl
  | cons text texts ih =>
    obtain ⟨first, others⟩ := List.forall_mem_cons.mp whole
    rw [List.flatMap_cons, List.append_assoc, List.singleton_append, lines_cons first, ih others]

end Text

namespace Numeral

theorem digit_spec : ∀ value < 10, digitValue? (digit value) = some value ∧ Text.isBlank (digit value) = false ∧
    digit value ≠ '+' ∧ digit value ≠ '_' := by
  decide

/-- A text of digits and nothing else. -/
def Decimal (text : List Char) : Prop := text ≠ [] ∧ ∀ c ∈ text, ∃ value < 10, c = digit value

theorem digitsBefore_decimal (number : Nat) (rest : List Char) :
    ∃ front, Decimal front ∧ digitsBefore number rest = front ++ rest := by
  induction number, rest using digitsBefore.induct with
  | case1 number rest small =>
    rw [digitsBefore, if_pos small]
    exact ⟨[digit number], ⟨by simp, by simpa using ⟨number, small, rfl⟩⟩, rfl⟩
  | case2 number rest large ih =>
    obtain ⟨front, ⟨_, digits⟩, same⟩ := ih
    rw [digitsBefore, if_neg large, same]
    refine ⟨front ++ [digit (number % 10)], ⟨by simp, fun c member => ?_⟩, by simp⟩
    rcases List.mem_append.mp member with inside | last
    · exact digits c inside
    · exact ⟨number % 10, Nat.mod_lt _ (by decide), List.mem_singleton.mp last⟩

theorem digits_decimal (number : Nat) : Decimal (digits number) := by
  obtain ⟨front, decimal, same⟩ := digitsBefore_decimal number []
  rw [digits, same, List.append_nil]
  exact decimal

/-- Reading the digits of a number leaves the number for what follows them. -/
theorem valueAfter_digitsBefore (number : Nat) (rest : List Char) :
    valueAfter 0 (digitsBefore number rest) = valueAfter number rest := by
  induction number, rest using digitsBefore.induct with
  | case1 number rest small =>
    rw [digitsBefore, if_pos small, valueAfter, (digit_spec number small).1]
    simp
  | case2 number rest large ih =>
    have parts : 10 * (number / 10) + number % 10 = number := Nat.div_add_mod number 10
    rw [digitsBefore, if_neg large, ih, valueAfter, (digit_spec _ (Nat.mod_lt _ (by decide))).1]
    simp [parts]

theorem value?_digits (number : Nat) : value? (digits number) = some number := by
  rw [value?, if_neg (digits_decimal number).1, digits, valueAfter_digitsBefore, valueAfter]

theorem readWord?_of_decimal {text : List Char} (decimal : Decimal text) :
    readWord? text = match value? text with
      | some value => if value < UInt32.size then some (UInt32.ofNat value) else none
      | none => none := by
  unfold readWord?
  split
  next rest =>
    obtain ⟨value, small, same⟩ := decimal.2 '+' List.mem_cons_self
    exact absurd same.symm (digit_spec value small).2.2.1
  next => rfl

theorem readWord?_digits {number : Nat} (small : number < UInt32.size) :
    readWord? (digits number) = some (UInt32.ofNat number) := by
  rw [readWord?_of_decimal (digits_decimal number), value?_digits]
  exact if_pos small

theorem Decimal.word {text : List Char} (decimal : Decimal text) : Text.Word text where
  nonempty := decimal.1
  visible c member := by
    obtain ⟨value, small, rfl⟩ := decimal.2 c member
    exact (digit_spec value small).2.1

end Numeral

theorem Line.ofTabbed_eq (fields : List (List Char)) : ofTabbed fields = Text.tabbed fields ++ ['\n'] := by
  induction fields with
  | nil => rfl
  | cons field fields ih =>
    cases fields with
    | nil => rfl
    | cons next fields => simp [ofTabbed, Text.tabbed, ih]

end Transducer
