import Transducer.Proofs.ListingGrammar
import Transducer.Proofs.SymbolBindings

/-! Symbol tables as text. The pairs that the lines of a text name are read one after the other, yet whether they can be
read, and what the table then is, depends only on which pairs there are. So a table that is printed and read again is
the same table. -/

namespace Transducer.Symbols

def Change.symbol : Change → String
  | .add symbol => symbol
  | .addWith symbol _ => symbol

variable {symbols first second next : Symbols} {symbol : String} {label : Label} {pairs others : List (String × Label)}
  {line text : List Char} {lines : List (List Char)} {number : Nat}

theorem equal_iff : first.equal second = true ↔ (∀ label, first.findSymbol? label = second.findSymbol? label) ∧
    (∀ symbol, first.findLabel? symbol = second.findLabel? symbol) ∧ first.available = second.available := by
  simp only [equal, Bool.and_eq_true, beq_iff_eq, and_assoc, entries, ← Std.TreeMap.equiv_iff_toList_eq]
  refine and_congr ⟨fun same label => same.getElem?_eq, .of_forall_constGet?_eq⟩ (and_congr_left fun _ => ?_)
  exact ⟨fun same symbol => same.getElem?_eq, .of_forall_constGet?_eq⟩

/-- The next label is the one that follows the greatest in use. -/
structure Counts (symbols : Symbols) : Prop where
  above : ∀ label, symbols.findSymbol? label ≠ none → following label ≤ symbols.available
  reached : symbols.available = 0 ∨ ∃ label, symbols.findSymbol? label ≠ none ∧ following label = symbols.available

theorem empty_counts : Counts empty := ⟨fun _ used => absurd rfl used, .inl rfl⟩

theorem following_le {bound : Label} (less : label < bound) : following label ≤ bound := by
  have small : label ≠ lastLabel := UInt32.ne_of_lt (UInt32.lt_of_lt_of_le less (le_lastLabel bound))
  have inside := bound.toNat_lt
  have step : label.toNat < bound.toNat := UInt32.lt_iff_toNat_lt.mp less
  have one : (1 : UInt32).toNat = 1 := rfl
  rw [following, if_neg (show ¬ label = 0xffffffff from small), UInt32.le_iff_toNat_le, UInt32.toNat_add]
  omega

theorem Counts.bind (counts : symbols.Counts) (symbol : String) (label : Label) :
    (symbols.bind symbol label).Counts := by
  have used (other : Label) : (symbols.bind symbol label).findSymbol? other ≠ none ↔
      other = label ∨ symbols.findSymbol? other ≠ none := by
    rw [findSymbol?_bind]
    by_cases same : label = other <;> simp [same, eq_comm]
  have moved : (symbols.bind symbol label).available =
      if symbols.available ≤ label then following label else symbols.available := rfl
  constructor
  case above =>
    intro other known
    rw [moved]
    rcases (used other).mp known with rfl | before
    · split
      next => exact UInt32.le_refl _
      next ahead => exact following_le (UInt32.not_le.mp ahead)
    · split
      next beyond => exact UInt32.le_trans (counts.above other before) (UInt32.le_trans beyond (le_following label))
      next => exact counts.above other before
  case reached =>
    rw [moved]
    split
    next => exact .inr ⟨label, (used label).mpr (.inl rfl), rfl⟩
    next =>
      rcases counts.reached with zero | ⟨other, before, same⟩
      · exact .inl zero
      · exact .inr ⟨other, (used other).mpr (.inr before), same⟩

theorem Counts.le (here : first.Counts) (there : second.Counts)
    (known : ∀ label, first.findSymbol? label ≠ none → second.findSymbol? label ≠ none) :
    first.available ≤ second.available := by
  rcases here.reached with zero | ⟨label, used, same⟩
  · exact zero ▸ UInt32.zero_le
  · exact same ▸ there.above label (known label used)

/-- Two of the pairs have the same symbol if and only if they have the same label. -/
def Matching (pairs : List (String × Label)) : Prop :=
  ∀ pair ∈ pairs, ∀ other ∈ pairs, pair.1 = other.1 ↔ pair.2 = other.2

theorem Matching.subset (matching : Matching others) (inside : pairs ⊆ others) : Matching pairs :=
  fun pair member other present => matching pair (inside member) other (inside present)

/-- The table has these pairs and no others. -/
structure Holds (pairs : List (String × Label)) (symbols : Symbols) : Prop where
  labels : ∀ symbol label, symbols.findLabel? symbol = some label ↔ (symbol, label) ∈ pairs
  names : ∀ symbol label, symbols.findSymbol? label = some symbol ↔ (symbol, label) ∈ pairs
  counts : symbols.Counts

theorem empty_holds : Holds [] empty := ⟨fun _ _ => ⟨nofun, nofun⟩, fun _ _ => ⟨nofun, nofun⟩, empty_counts⟩

namespace Holds

theorem congr (holds : Holds pairs symbols) (same : ∀ pair, pair ∈ pairs ↔ pair ∈ others) : Holds others symbols where
  labels symbol label := (holds.labels symbol label).trans (same _)
  names symbol label := (holds.names symbol label).trans (same _)
  counts := holds.counts

theorem matching (holds : Holds pairs symbols) : Matching pairs := by
  intro pair member other present
  constructor
  · intro same
    have known := (holds.labels pair.1 pair.2).mpr member
    rw [same, (holds.labels other.1 other.2).mpr present] at known
    exact (Option.some.inj known).symm
  · intro same
    have known := (holds.names pair.1 pair.2).mpr member
    rw [same, (holds.names other.1 other.2).mpr present] at known
    exact (Option.some.inj known).symm

/-- What a table is depends on its pairs only. -/
theorem equal (here : Holds pairs first) (there : Holds pairs second) : first.equal second = true := by
  have named (label : Label) : first.findSymbol? label = second.findSymbol? label :=
    Option.ext fun symbol => (here.names symbol label).trans (there.names symbol label).symm
  refine equal_iff.mpr ⟨named, fun symbol => ?_, ?_⟩
  · exact Option.ext fun label => (here.labels symbol label).trans (there.labels symbol label).symm
  · apply UInt32.le_antisymm
    · exact here.counts.le there.counts fun label used => named label ▸ used
    · exact there.counts.le here.counts fun label used => named label ▸ used

theorem bind (holds : Holds pairs symbols) (newSymbol : symbols.findLabel? symbol = none)
    (newLabel : symbols.findSymbol? label = none) : Holds (pairs ++ [(symbol, label)]) (symbols.bind symbol label) := by
  have freeSymbol (other : Label) : (symbol, other) ∉ pairs := fun member => by
    cases newSymbol.symm.trans ((holds.labels symbol other).mpr member)
  have freeLabel (other : String) : (other, label) ∉ pairs := fun member => by
    cases newLabel.symm.trans ((holds.names other label).mpr member)
  constructor
  case labels =>
    intro other label'
    rw [findLabel?_bind]
    by_cases same : symbol = other
    · subst same
      simp [freeSymbol, eq_comm]
    · simp [same, Ne.symm same, holds.labels]
  case names =>
    intro other label'
    rw [findSymbol?_bind]
    by_cases same : label = label'
    · subst same
      simp [freeLabel, eq_comm]
    · simp [same, Ne.symm same, holds.names]
  case counts => exact holds.counts.bind symbol label

theorem addWith_ok (holds : Holds pairs symbols) (done : symbols.addWith symbol label = .ok next) :
    Holds (pairs ++ [(symbol, label)]) next := by
  unfold addWith at done
  split at done
  next _ _ other known =>
    split at done
    next same =>
      obtain rfl := Except.ok.inj done
      have member : (symbol, label) ∈ pairs := same ▸ (holds.labels symbol other).mp known
      refine holds.congr fun pair => ⟨List.mem_append_left _, fun given => ?_⟩
      rcases List.mem_append.mp given with before | last
      · exact before
      · exact List.mem_singleton.mp last ▸ member
    next => cases done
  next => cases done
  next newSymbol newLabel => exact Except.ok.inj done ▸ holds.bind newSymbol newLabel

/-- A pair is refused only if it has its symbol or its label, but not both, from a pair that is there already. -/
theorem exists_addWith (holds : Holds pairs symbols) (matching : Matching (pairs ++ [(symbol, label)])) :
    ∃ next, symbols.addWith symbol label = .ok next := by
  have agrees {other : String × Label} (member : other ∈ pairs) : other.1 = symbol ↔ other.2 = label :=
    matching other (List.mem_append_left _ member) (symbol, label) (List.mem_append_right _ List.mem_cons_self)
  unfold addWith
  split
  next _ _ other known =>
    have same : other = label := (agrees ((holds.labels symbol other).mp known)).mp rfl
    exact ⟨symbols, if_pos same⟩
  next other new taken =>
    have same : other = symbol := (agrees ((holds.names other label).mp taken)).mpr rfl
    subst same
    cases new.symm.trans ((holds.labels other label).mpr ((holds.names other label).mp taken))
  next => exact ⟨_, rfl⟩

end Holds

/-- The line has two fields, the symbol and the label as a numeral. -/
def Names (line : List Char) (symbol : String) (label : Label) : Prop :=
  ∃ numeral, Text.fields line = [symbol.toList, numeral] ∧ Numeral.Denotes numeral label

/-- The pair that a line names. -/
def pair? (line : List Char) : Option (String × Label) :=
  match Text.fields line with
  | [symbol, numeral] => (Numeral.readWord? numeral).map fun label => (String.ofList symbol, label)
  | _ => none

theorem pair?_eq_some : pair? line = some (symbol, label) ↔ Names line symbol label := by
  unfold pair? Names
  split
  next name numeral two =>
    simp only [Option.map_eq_some_iff, Numeral.readWord?_eq_some, two, Prod.mk.injEq, List.cons.injEq, and_true]
    constructor
    · intro given
      obtain ⟨label, denotes, rfl, rfl⟩ := given
      exact ⟨numeral, ⟨String.toList_ofList.symm, rfl⟩, denotes⟩
    · intro given
      obtain ⟨other, ⟨rfl, rfl⟩, denotes⟩ := given
      exact ⟨label, denotes, String.ofList_toList, rfl⟩
  next other =>
    refine iff_of_false nofun fun given => ?_
    obtain ⟨numeral, two, -⟩ := given
    exact other _ _ two

/-- A line is blank, names a pair, or is no line of a table. -/
theorem line_cases (line : List Char) :
    (Text.fields line = [] ∧ pair? line = none ∧
      ∀ (symbols : Symbols) number, symbols.addLine number (Text.fields line) = .ok symbols) ∨
    (∃ symbol label, pair? line = some (symbol, label) ∧
      ∀ (symbols : Symbols) number, symbols.addLine number (Text.fields line) = symbols.addWith symbol label) ∨
    (Text.fields line ≠ [] ∧ pair? line = none ∧
      ∀ (symbols : Symbols) number, ∃ error, symbols.addLine number (Text.fields line) = .error error) := by
  unfold pair? addLine
  rcases Text.fields line with _ | ⟨name, _ | ⟨numeral, rest⟩⟩
  · exact .inl ⟨rfl, rfl, fun _ _ => rfl⟩
  · exact .inr (.inr ⟨nofun, rfl, fun _ _ => ⟨_, rfl⟩⟩)
  · cases read : Numeral.readWord? numeral with
    | none =>
      refine .inr (.inr ⟨nofun, ?_, fun _ number => ⟨.missingLabel number, by simp only [read]⟩⟩)
      cases rest <;> simp [read]
    | some label =>
      cases rest with
      | nil => exact .inr (.inl ⟨String.ofList name, label, by simp only [read, Option.map_some], fun _ _ => by simp only [read, if_true]⟩)
      | cons more rest => exact .inr (.inr ⟨nofun, rfl, fun _ number => ⟨.extraFields number, by simp [read]⟩⟩)

/-- Every line that is not blank names a pair. -/
def Legible (lines : List (List Char)) : Prop := ∀ line ∈ lines, Text.fields line ≠ [] → pair? line ≠ none

namespace Holds

/-- What has been read holds all pairs that the lines name. -/
theorem addLines_ok (holds : Holds pairs symbols) (done : symbols.addLines number lines = .ok next) :
    Legible lines ∧ Holds (pairs ++ lines.filterMap pair?) next := by
  -- the pairs read so far are carried along, for they decide what becomes of the next one
  induction lines generalizing symbols pairs number with
  | nil =>
    obtain rfl := Except.ok.inj done
    exact ⟨List.forall_mem_nil _, by simpa using holds⟩
  | cons line lines ih =>
    obtain ⟨middle, here, later⟩ := except_bind_ok.mp done
    rcases line_cases line with ⟨blank, silent, same⟩ | ⟨symbol, label, named, added⟩ | ⟨-, -, refused⟩
    · obtain rfl : symbols = middle := Except.ok.inj ((same symbols number).symm.trans here)
      obtain ⟨legible, all⟩ := ih holds later
      exact ⟨List.forall_mem_cons.mpr ⟨fun some => absurd blank some, legible⟩, by simpa [silent] using all⟩
    · obtain ⟨legible, all⟩ := ih (holds.addWith_ok ((added symbols number).symm.trans here)) later
      exact ⟨List.forall_mem_cons.mpr ⟨fun _ => by simp [named], legible⟩, by simpa [named] using all⟩
    · obtain ⟨error, failed⟩ := refused symbols number
      cases failed.symm.trans here

/-- Each pair finds those before it without a conflict, so all lines are read. -/
theorem exists_addLines (holds : Holds pairs symbols) (legible : Legible lines)
    (matching : Matching (pairs ++ lines.filterMap pair?)) : ∃ next, symbols.addLines number lines = .ok next := by
  induction lines generalizing symbols pairs number with
  | nil => exact ⟨symbols, rfl⟩
  | cons line lines ih =>
    obtain ⟨first, others⟩ := List.forall_mem_cons.mp legible
    rcases line_cases line with ⟨-, silent, same⟩ | ⟨symbol, label, named, added⟩ | ⟨some, silent, -⟩
    · obtain ⟨next, done⟩ : ∃ next, symbols.addLines (number + 1) lines = .ok next :=
        ih holds others (by simpa [silent] using matching)
      exact ⟨next, except_bind_ok.mpr ⟨symbols, same symbols number, done⟩⟩
    · have split : pairs ++ (line :: lines).filterMap pair? = pairs ++ [(symbol, label)] ++ lines.filterMap pair? := by
        simp [named]
      rw [split] at matching
      obtain ⟨middle, here⟩ := holds.exists_addWith (matching.subset (List.subset_append_left _ _))
      obtain ⟨next, done⟩ : ∃ next, middle.addLines (number + 1) lines = .ok next :=
        ih (holds.addWith_ok here) others matching
      exact ⟨next, except_bind_ok.mpr ⟨middle, (added symbols number).trans here, done⟩⟩
    · exact absurd silent (first some)

end Holds

theorem ofText_ok_iff : (∃ table, ofText text = .ok table) ↔
    Legible (Text.lines text) ∧ Matching ((Text.lines text).filterMap pair?) := by
  constructor
  · intro given
    obtain ⟨table, read⟩ := given
    obtain ⟨legible, holds⟩ := empty_holds.addLines_ok read
    exact ⟨legible, holds.matching⟩
  · intro given
    exact empty_holds.exists_addLines given.1 given.2

theorem ofText_holds {table : Symbols} (read : ofText text = .ok table) :
    Holds ((Text.lines text).filterMap pair?) table :=
  (empty_holds.addLines_ok read).2

/-- Some line of the text names the pair. -/
def Named (text : List Char) (symbol : String) (label : Label) : Prop := ∃ line ∈ Text.lines text, Names line symbol label

theorem mem_pairs : (symbol, label) ∈ (Text.lines text).filterMap pair? ↔ Named text symbol label := by
  simp only [List.mem_filterMap, pair?_eq_some, Named]

theorem legible_iff : Legible lines ↔
    ∀ line ∈ lines, (∃ c ∈ line, Text.isBlank c = false) → ∃ symbol label, Names line symbol label := by
  refine forall₂_congr fun line _ => imp_congr ?_ ?_
  · simp [Text.fields_eq_nil]
  · simp only [Option.ne_none_iff_exists', Prod.exists, pair?_eq_some]

theorem matching_pairs : Matching ((Text.lines text).filterMap pair?) ↔ ∀ symbol label symbol' label',
    Named text symbol label → Named text symbol' label' → (symbol = symbol' ↔ label = label') := by
  simp only [Matching, Prod.forall, mem_pairs]
  exact ⟨fun all symbol label symbol' label' named => all symbol label named symbol' label',
    fun all symbol label named symbol' label' => all symbol label symbol' label' named⟩

theorem mem_entries : (label, symbol) ∈ symbols.entries ↔ symbols.findSymbol? label = some symbol :=
  Std.TreeMap.mem_toList_iff_getElem?_eq_some

/-- The line of a label in the text of a table. -/
def spelled (entry : Label × String) : List Char := Text.tabbed [entry.2.toList, Numeral.digits entry.1.toNat]

theorem words_spelled (word : Text.Word symbol.toList) (label : Label) :
    ∀ field ∈ [symbol.toList, Numeral.digits label.toNat], Text.Word field := by
  simpa using ⟨word, (Numeral.digits_decimal label.toNat).word⟩

theorem pair?_spelled (word : Text.Word symbol.toList) : pair? (spelled (label, symbol)) = some (symbol, label) := by
  rw [pair?, spelled, Text.fields_tabbed (words_spelled word label)]
  simp only [Numeral.readWord?_digits label.toNat_lt, Option.map_some, String.ofList_toList, UInt32.ofNat_toNat]

theorem lines_toText (printable : symbols.Printable) : Text.lines symbols.toText = symbols.entries.map spelled := by
  have text : symbols.toText = (symbols.entries.map spelled).flatMap fun line => line ++ ['\n'] := by
    rw [List.flatMap_map]
    rfl
  rw [text, Text.lines_flatMap]
  intro line member
  obtain ⟨⟨label, symbol⟩, listed, rfl⟩ := List.mem_map.mp member
  exact Text.tabbed_oneLine (words_spelled (printable label symbol (mem_entries.mp listed)) label)

/-- What is printed is read as the same table. -/
theorem reread (paired : symbols.Paired) (printable : symbols.Printable) (counts : symbols.Counts) :
    ∃ again, ofText symbols.toText = .ok again ∧ again.equal symbols = true := by
  have each {label : Label} {symbol : String} (listed : (label, symbol) ∈ symbols.entries) :
      pair? (spelled (label, symbol)) = some (symbol, label) :=
    pair?_spelled (printable label symbol (mem_entries.mp listed))
  have named : (Text.lines symbols.toText).filterMap pair? = symbols.entries.map Prod.swap := by
    rw [lines_toText printable, List.filterMap_map]
    exact List.filterMap_eq_map_iff_forall_eq_some.mpr fun entry listed => each listed
  have legible : Legible (Text.lines symbols.toText) := by
    rw [lines_toText printable]
    intro line member _
    obtain ⟨entry, listed, rfl⟩ := List.mem_map.mp member
    simp [each listed]
  have holds : Holds (symbols.entries.map Prod.swap) symbols := by
    have listed (symbol : String) (label : Label) :
        (symbol, label) ∈ symbols.entries.map Prod.swap ↔ symbols.findSymbol? label = some symbol := by
      simp [← mem_entries]
    exact ⟨fun symbol label => (paired label symbol).symm.trans (listed symbol label).symm,
      fun symbol label => (listed symbol label).symm, counts⟩
  obtain ⟨again, read⟩ := ofText_ok_iff.mpr ⟨legible, named ▸ holds.matching⟩
  exact ⟨again, read, (named ▸ ofText_holds read : Holds (symbols.entries.map Prod.swap) again).equal holds⟩

theorem Printable.after {change : Change} (printable : symbols.Printable)
    (word : Text.Word change.symbol.toList) : (symbols.after change).Printable := by
  cases change with
  | add symbol =>
    show (symbols.add symbol).1.Printable
    unfold add
    split
    next => exact printable
    next => exact printable.bind word
  | addWith symbol label =>
    cases outcome : symbols.addWith symbol label with
    | error error =>
      have same : symbols.after (.addWith symbol label) = symbols := after_of_error outcome
      rwa [same]
    | ok next =>
      have same : symbols.after (.addWith symbol label) = next := after_of_ok outcome
      rcases addWith_cases outcome with rfl | ⟨-, -, rfl⟩
      · rwa [same]
      · exact same ▸ printable.bind word

theorem Counts.after {change : Change} (counts : symbols.Counts) (consistent : symbols.Consistent) :
    (symbols.after change).Counts := by
  rcases consistent.after_cases change with ⟨-, same⟩ | ⟨-, symbol, label, -, -, same⟩ | ⟨-, -, symbol, -, same⟩
  · rwa [same]
  · exact same ▸ counts.bind symbol label
  · exact same ▸ counts.bind symbol lastLabel

theorem afterAll_counts (changes : List Change) : (afterAll changes).Counts := by
  induction changes using List.reverseRecOn with
  | nil => exact empty_counts
  | append_singleton changes change ih => exact afterAll_concat changes change ▸ ih.after (afterAll_consistent changes)

theorem afterAll_printable {changes : List Change} (words : ∀ change ∈ changes, Text.Word change.symbol.toList) :
    (afterAll changes).Printable := by
  induction changes using List.reverseRecOn with
  | nil => exact empty_printable
  | append_singleton changes change ih =>
    rw [afterAll_concat]
    apply (ih fun change member => words change (List.mem_append_left _ member)).after
    exact words change (List.mem_append_right _ List.mem_cons_self)

/-- Symbols come to share a label only at the last label of all. -/
theorem afterAll_paired {changes : List Change} (room : (afterAll changes).findSymbol? lastLabel = none) :
    (afterAll changes).Paired := by
  rcases afterAll_settles changes with ⟨-, paired⟩ | ⟨-, symbol, taken, -⟩
  · exact paired
  · exact absurd room ((afterAll_consistent changes).used symbol lastLabel taken)

/-- A text is read if and only if every line that is not blank is a symbol and the numeral of a label, and of all the
pairs in it two have the same symbol just if they have the same label. The table has these pairs and no others, in
whatever order and however often the lines come. Printed and read again it is the same table, and so is every table
that changes lead to as long as the last label is free. -/
theorem texts_settle (text : List Char) :
    ((∃ table, ofText text = .ok table) ↔
      (∀ line ∈ Text.lines text, (∃ c ∈ line, Text.isBlank c = false) → ∃ symbol label, Names line symbol label) ∧
      ∀ symbol label symbol' label', Named text symbol label → Named text symbol' label' →
        (symbol = symbol' ↔ label = label')) ∧
    (∀ table, ofText text = .ok table →
      (∀ symbol label, (table.findLabel? symbol = some label ↔ Named text symbol label) ∧
        (table.findSymbol? label = some symbol ↔ Named text symbol label)) ∧
      (∀ other, (∀ line, line ∈ Text.lines other ↔ line ∈ Text.lines text) →
        ∃ same, ofText other = .ok same ∧ same.equal table = true) ∧
      ∃ again, ofText table.toText = .ok again ∧ again.equal table = true) ∧
    ∀ changes : List Change, (∀ change ∈ changes, Text.Word change.symbol.toList) →
      (afterAll changes).findSymbol? lastLabel = none →
      ∃ again, ofText (afterAll changes).toText = .ok again ∧ again.equal (afterAll changes) = true := by
  refine ⟨?_, fun table read => ⟨fun symbol label => ?_, fun other lines => ?_, ?_⟩, fun changes words room => ?_⟩
  · rw [ofText_ok_iff, legible_iff, matching_pairs]
  · have holds := ofText_holds read
    exact ⟨(holds.labels symbol label).trans mem_pairs, (holds.names symbol label).trans mem_pairs⟩
  · have pairs (pair : String × Label) :
        pair ∈ (Text.lines text).filterMap pair? ↔ pair ∈ (Text.lines other).filterMap pair? := by
      simp only [List.mem_filterMap, lines]
    have holds := (ofText_holds read).congr pairs
    have legible : Legible (Text.lines other) := fun line member =>
      (ofText_ok_iff.mp ⟨table, read⟩).1 line ((lines line).mp member)
    obtain ⟨same, again⟩ := ofText_ok_iff.mpr ⟨legible, holds.matching⟩
    exact ⟨same, again, (ofText_holds again).equal holds⟩
  · exact reread (ofText_paired read) (ofText_printable read) (ofText_holds read).counts
  · exact reread (afterAll_paired room) (afterAll_printable words) (afterAll_counts changes)

/-- Three symbols, one of them named twice, and an empty line. -/
def notes : List Char := "b 2\n<eps>\t0\n\na\t+01\nb 02\n".toList

theorem notes_settle : ∃ table, ofText notes = .ok table ∧ table.findSymbol? 1 = some "a" ∧
    (∃ same, ofText "\na\t+01\r\nb 2\nb 02\n<eps>\t0".toList = .ok same ∧ same.equal table = true) ∧
    (∃ again, ofText table.toText = .ok again ∧ again.equal table = true) ∧
    ∃ again, ofText (afterAll [.addWith "b" 7, .addWith "a" 7, .add "c"]).toText = .ok again ∧
      again.equal (afterAll [.addWith "b" 7, .addWith "a" 7, .add "c"]) = true := by
  have isRead : (ofText notes).toOption.isSome = true := by decide +kernel
  cases read : ofText notes with
  | error error => simp [read, Except.toOption] at isRead
  | ok table =>
    obtain ⟨-, reads, changed⟩ := texts_settle notes
    obtain ⟨holds, lines, again⟩ := reads table read
    have named : Named notes "a" 1 :=
      ⟨"a\t+01".toList, by decide, "+01".toList, by decide, Numeral.readWord?_eq_some.mp (by decide)⟩
    refine ⟨table, rfl, (holds "a" 1).2.mpr named, lines _ ?_, again, changed _ ?_ ?_⟩
    · have shuffled : (Text.lines "\na\t+01\r\nb 2\nb 02\n<eps>\t0".toList).Perm (Text.lines notes) := by decide
      exact fun line => shuffled.mem_iff
    · decide
    · decide +kernel

end Transducer.Symbols
