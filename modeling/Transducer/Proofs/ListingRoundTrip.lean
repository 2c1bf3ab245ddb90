import Transducer.Proofs.Printing
import Transducer.Proofs.SymbolTables
import Transducer.Proofs.WeightText

/-! A graph that is printed and read again. The states that the listing names come back under new numbers, in the
order in which they are first named, with their arcs and final weights. -/

namespace Transducer

variable {W : Type} {tables : LabelTables} {graph : Graph W} {start s : StateId}

/-- The line can be printed, and its states have numbers that can be read. -/
structure Line.Writable (tables : LabelTables) (line : Line W) : Prop where
  named : line.Named tables
  small : ∀ s ∈ line.names, s < UInt32.size

theorem Graph.Named.writable (formed : graph.WellFormed) (small : graph.size ≤ UInt32.size)
    (inside : start < graph.size) (named : graph.Named tables) : ∀ line ∈ graph.linesFrom start, line.Writable tables := by
  intro line listed
  have numbers (s : StateId) (member : s ∈ line.names) : s < UInt32.size :=
    have occurs := (mem_mentioned_linesFrom inside).mp (mem_mentioned.mpr ⟨line, listed, member⟩)
    Nat.lt_of_lt_of_le (occurs.lt formed) small
  obtain ⟨s, member⟩ := (mem_linesFrom inside).mp listed
  rcases mem_linesOf.mp member with ⟨arc, leaves, rfl⟩ | ⟨weight, _, rfl⟩
  · exact ⟨named s arc leaves, numbers⟩
  · exact ⟨trivial, numbers⟩

variable [Weight W] {same : W → W → Prop}

/-- What a weight is after it has been printed and read. The weight one is left out and comes back as it is. -/
def Weight.reread (w : W) : W := if isOne w then one else ((parse {} (display w)).toOption).getD w

/-- The tables, where there are any, were read from text. -/
def LabelTables.Read (tables : LabelTables) : Prop :=
  ∀ symbols, tables.input = some symbols ∨ tables.output = some symbols → ∃ text, Symbols.ofText text = .ok symbols

/-- What holds of every table that is read from text holds of the tables. -/
theorem LabelTables.Read.holds {property : Symbols → Prop} (read : tables.Read)
    (given : ∀ {text symbols}, Symbols.ofText text = .ok symbols → property symbols) :
    (∀ symbols ∈ tables.input, property symbols) ∧ ∀ symbols ∈ tables.output, property symbols := by
  refine ⟨fun symbols present => ?_, fun symbols present => ?_⟩
  · obtain ⟨text, done⟩ := read symbols (.inl present)
    exact given done
  · obtain ⟨text, done⟩ := read symbols (.inr present)
    exact given done

theorem Weight.Legible.reread_same (legible : Weight.Legible W same) {w : W} (other : Weight.isOne w ≠ true) :
    same w (Weight.reread w) := by
  obtain ⟨back, read, kept⟩ := legible.reads w
  rw [reread, if_neg other, read]
  exact kept

theorem Weight.reread_one {w : W} (one : Weight.isOne w = true) : Weight.reread w = Weight.one := if_pos one

namespace Line

/-- The line with its weight as it comes back. -/
def reread : Line W → Line W
  | .blank => .blank
  | .final state weight => .final state (Weight.reread weight)
  | .arc source target input output weight => .arc source target input output (Weight.reread weight)

/-- The states that the fields of a line name. The names of a short line end before its weight. -/
def namedBy (fields : List (List Char)) : List StateId :=
  (fields.take (if fields.length < 4 then 1 else 2)).filterMap fun field => (Numeral.readWord? field).map UInt32.toNat

theorem readState_digits (small : s < UInt32.size) : readState (Numeral.digits s) = .ok s := by
  rw [readState, Numeral.readWord?_digits small]
  exact congrArg Except.ok (UInt32.toNat_ofNat_of_lt' small)

theorem readLabel_labelText {table : Option Symbols} {label : Label} (paired : ∀ symbols ∈ table, symbols.Paired)
    (named : Transducer.Named table label) : readLabel table (labelText table label) = .ok label := by
  cases table with
  | none =>
    rw [readLabel, labelText, Numeral.readWord?_digits label.toNat_lt, UInt32.ofNat_toNat]
  | some symbols =>
    obtain ⟨symbol, found⟩ := Option.ne_none_iff_exists'.mp (named symbols rfl)
    have label := (paired symbols rfl label symbol).mp found
    simp [readLabel, labelText, found, label]

theorem labelText_word {table : Option Symbols} {label : Label} (printable : ∀ symbols ∈ table, symbols.Printable)
    (named : Transducer.Named table label) : Text.Word (labelText table label) := by
  cases table with
  | none => exact (Numeral.digits_decimal label.toNat).word
  | some symbols =>
    obtain ⟨symbol, found⟩ := Option.ne_none_iff_exists'.mp (named symbols rfl)
    simpa [labelText, found] using printable symbols rfl label symbol found

/-- A weight is left out, or it is a field that can be read. -/
theorem weightFields_cases (legible : Weight.Legible W same) (weight : W) :
    weightFields weight = [] ∧ Weight.reread weight = Weight.one ∨
    ∃ field, Text.Word field ∧ weightFields weight = [field] ∧
      (readWeight field : Except LineError W) = .ok (Weight.reread weight) := by
  by_cases one : Weight.isOne weight = true
  · exact .inl ⟨if_pos one, Weight.reread_one one⟩
  · obtain ⟨back, read, _⟩ := legible.reads weight
    refine .inr ⟨Weight.display weight, legible.word weight, if_neg one, ?_⟩
    rw [readWeight, Weight.reread, if_neg one, read]
    rfl

theorem weightFields_word (legible : Weight.Legible W same) (weight : W) :
    ∀ word ∈ weightFields weight, Text.Word word := by
  rcases weightFields_cases legible weight with ⟨none, _⟩ | ⟨field, word, single, _⟩
  · simp [none]
  · simpa [single] using word

variable {line : Line W}

theorem words_word (legible : Weight.Legible W same) (read : tables.Read) (writable : line.Writable tables) :
    ∀ word ∈ line.words tables, Text.Word word := by
  have printable := read.holds Symbols.ofText_printable
  have digits (s : StateId) : Text.Word (Numeral.digits s) := (Numeral.digits_decimal s).word
  cases line with
  | blank => exact List.forall_mem_nil _
  | final state weight => exact List.forall_mem_cons.mpr ⟨digits state, weightFields_word legible weight⟩
  | arc source target input output weight =>
    have labels : Text.Word (labelText tables.input input) ∧ Text.Word (labelText tables.output output) :=
      ⟨labelText_word printable.1 writable.named.1, labelText_word printable.2 writable.named.2⟩
    refine List.forall_mem_append.mpr ⟨?_, weightFields_word legible weight⟩
    simpa using ⟨digits source, digits target, labels.1, labels.2⟩

theorem ofFields_words (legible : Weight.Legible W same) (read : tables.Read) (writable : line.Writable tables) :
    ofFields tables (line.words tables) = .ok line.reread := by
  have paired := read.holds Symbols.ofText_paired
  cases line with
  | blank => rfl
  | final state weight =>
    have known := readState_digits (writable.small state (by simp [names]))
    rcases weightFields_cases legible weight with ⟨none, one⟩ | ⟨field, _, single, back⟩
    · rw [words, none, ofFields, readFinal, known, reread, one]
      rfl
    · rw [words, single, ofFields, readFinal, known, back]
      rfl
  | arc source target input output weight =>
    have first := readState_digits (writable.small source (by simp [names]))
    have second := readState_digits (writable.small target (by simp [names]))
    have inputs := readLabel_labelText paired.1 writable.named.1
    have outputs := readLabel_labelText paired.2 writable.named.2
    rcases weightFields_cases legible weight with ⟨none, one⟩ | ⟨field, _, single, back⟩
    · rw [words, none, List.append_nil, ofFields, readArc, first, second, inputs, outputs, reread, one]
      rfl
    · rw [words, single, List.cons_append, List.cons_append, List.cons_append, List.cons_append, List.nil_append,
        ofFields, readArc, first, second, inputs, outputs, back]
      rfl

theorem namedBy_words (writable : line.Writable tables) : namedBy (line.words tables) = line.names := by
  have number {s : StateId} (small : s < UInt32.size) :
      (Numeral.readWord? (Numeral.digits s)).map UInt32.toNat = some s := by
    rw [Numeral.readWord?_digits small, Option.map_some, UInt32.toNat_ofNat_of_lt' small]
  cases line with
  | blank => rfl
  | final state weight =>
    have short : (words tables (.final state weight)).length < 4 := by
      rw [words, weightFields]
      split <;> simp
    have known := number (writable.small state (by simp [names]))
    rw [namedBy, if_pos short]
    simp [words, names, known]
  | arc source target input output weight =>
    have long : ¬ (words tables (.arc source target input output weight)).length < 4 := by simp [words]
    have first := number (writable.small source (by simp [names]))
    have second := number (writable.small target (by simp [names]))
    rw [namedBy, if_neg long]
    simp [words, names, first, second]

@[simp] theorem names_reread (line : Line W) : line.reread.names = line.names := by
  cases line <;> rfl

end Line

/-- The states that a text names, in the order in which they are first named. -/
def Text.mentions (text : List Char) : List StateId :=
  ((lines text).flatMap fun line => Line.namedBy (fields line)).eraseDups

section Lines

variable {lines : List (Line W)}

theorem lines_textOf (legible : Weight.Legible W same) (read : tables.Read)
    (writable : ∀ line ∈ lines, line.Writable tables) :
    Text.lines (Graph.textOf tables lines) = lines.map fun line => Text.tabbed (line.words tables) := by
  have ended : Graph.textOf tables lines =
      (lines.map fun line => Text.tabbed (line.words tables)).flatMap fun text => text ++ ['\n'] := by
    simp only [Graph.textOf, List.flatMap_map, Line.ofTabbed_eq]
  rw [ended]
  apply Text.lines_flatMap
  intro text member
  obtain ⟨line, listed, rfl⟩ := List.mem_map.mp member
  exact Text.tabbed_oneLine (Line.words_word legible read (writable line listed))

/-- The lines that are printed are the lines that are read, but for their weights. -/
theorem ofListing_textOf (legible : Weight.Legible W same) (read : tables.Read)
    (writable : ∀ line ∈ lines, line.Writable tables) :
    Graph.ofListing tables (Graph.textOf tables lines) = .ok (Graph.ofLines (lines.map Line.reread)) := by
  refine Graph.ofListing_ok.mpr ⟨lines.map Line.reread, ?_, rfl⟩
  rw [lines_textOf legible read writable, List.forall₂_map_left_iff, List.forall₂_map_right_iff, List.forall₂_same]
  intro line listed
  rw [Text.fields_tabbed (Line.words_word legible read (writable line listed))]
  exact Line.ofFields_words legible read (writable line listed)

theorem mentions_textOf (legible : Weight.Legible W same) (read : tables.Read)
    (writable : ∀ line ∈ lines, line.Writable tables) :
    Text.mentions (Graph.textOf tables lines) = mentioned lines := by
  rw [Text.mentions, lines_textOf legible read writable, mentioned, List.flatMap_map]
  congr 1
  apply List.flatMap_congr
  intro line listed
  rw [Text.fields_tabbed (Line.words_word legible read (writable line listed))]
  exact Line.namedBy_words (writable line listed)

theorem mentioned_reread (lines : List (Line W)) : mentioned (lines.map Line.reread) = mentioned lines := by
  simp only [mentioned, List.flatMap_map, Line.names_reread]

end Lines

namespace Graph

/-- The weight comes back as the same, and as the weight one if it is equal to that. -/
def Kept (same : W → W → Prop) (before after : W) : Prop :=
  if Weight.isOne before then after = Weight.one else same before after

/-- A graph cut down to the states that occur in it, with the numbers that they have in the order. -/
structure Restores (same : W → W → Prop) (graph : Graph W) (order : List StateId) (back : Graph W) : Prop where
  distinct : order.Nodup
  member : ∀ s, s ∈ order ↔ graph.Occurs s
  sized : back.size = order.length
  start : back.start = order.head?.map fun _ => 0
  first : ∀ s ∈ order.head?, graph.start = some s
  arcs : ∀ (i : StateId) s, order[i]? = some s → List.Forall₂ (fun arc moved =>
    moved.input = arc.input ∧ moved.output = arc.output ∧ Kept same arc.weight moved.weight ∧
      order[moved.target]? = some arc.target) (graph.arcsFrom s) (back.arcsFrom i)
  finals : ∀ (i : StateId) s, order[i]? = some s → Option.Rel (Kept same) (graph.finalOf s) (back.finalOf i)

theorem Kept.reread (legible : Weight.Legible W same) (w : W) : Kept same w (Weight.reread w) := by
  unfold Kept
  split
  next one => exact Weight.reread_one one
  next other => exact legible.reread_same other

theorem arcs_reread (place : StateId → StateId) (inside : start < graph.size) (known : s < graph.size) :
    ((graph.linesFrom start).map Line.reread).filterMap (Line.arcOf? place s) =
      (graph.arcsFrom s).map fun arc => ⟨arc.input, arc.output, Weight.reread arc.weight, place arc.target⟩ := by
  rw [List.filterMap_map, filterMap_linesFrom inside known fun t other => ?_]
  · cases final : graph.finalOf s <;>
      simp [linesOf, final, List.filterMap_map, Function.comp_def, Arc.line, Line.reread, Line.arcOf?]
  · cases final : graph.finalOf t <;>
      simp [linesOf, final, List.filterMap_map, Function.comp_def, Arc.line, Line.reread, Line.arcOf?, other]

theorem finals_reread (inside : start < graph.size) (known : s < graph.size) :
    ((graph.linesFrom start).map Line.reread).filterMap (Line.finalOf? s) =
      ((graph.finalOf s).map Weight.reread).toList := by
  rw [List.filterMap_map, filterMap_linesFrom inside known fun t other => ?_]
  · cases final : graph.finalOf s <;>
      simp [linesOf, final, List.filterMap_map, Function.comp_def, Arc.line, Line.reread, Line.finalOf?]
  · cases final : graph.finalOf t <;>
      simp [linesOf, final, List.filterMap_map, Function.comp_def, Arc.line, Line.reread, Line.finalOf?, other]

theorem ofLines_restores (legible : Weight.Legible W same) (formed : graph.WellFormed)
    (begins : graph.start = some start) (shown : ¬ graph.Hidden start) :
    Restores same graph (mentioned (graph.linesFrom start)) (ofLines ((graph.linesFrom start).map Line.reread)) := by
  have inside := formed.start start begins
  have names := mentioned_reread (graph.linesFrom start)
  have member (s : StateId) : s ∈ mentioned (graph.linesFrom start) ↔ graph.Occurs s := mem_mentioned_linesFrom inside
  have known {i : StateId} {s : StateId} (found : (mentioned (graph.linesFrom start))[i]? = some s) :
      s < graph.size := ((member s).mp (List.mem_of_getElem? found)).lt formed
  have content {i : StateId} {s : StateId} (found : (mentioned (graph.linesFrom start))[i]? = some s) :=
    ofLines_getElem? (names.symm ▸ found)
  constructor
  case distinct => exact nodup_eraseDups _
  case member => exact member
  case sized => simp [ofLines, size, names]
  case start => rw [ofLines, names]
  case first => exact fun s found => begins.trans (congrArg some (head?_mentioned shown s found).symm)
  case arcs =>
    intro i s found
    rw [arcsFrom_of_getElem? (content found), stateOf, arcs_reread _ inside (known found),
      List.forall₂_map_right_iff, List.forall₂_same]
    intro arc leaves
    have named := (member arc.target).mpr (.inr ⟨s, arc, leaves, rfl⟩)
    exact ⟨rfl, rfl, .reread legible arc.weight, by rw [names]; exact List.getElem?_idxOf named⟩
  case finals =>
    intro i s found
    rw [finalOf_of_getElem? (content found), stateOf, finals_reread inside (known found)]
    cases graph.finalOf s with
    | none => exact .none
    | some weight => exact .some (.reread legible weight)

/-- A graph whose states a word counts and whose labels have names is printed unless its start is hidden, and comes
back from the text. Where nothing is printed there is no state to come back. -/
theorem listings_restore :
    (∀ side, Weight.Legible (LabelString side) (· = ·)) ∧ Weight.Legible Boolean (· = ·) ∧
    ∀ {W : Type} [Weight W] {same : W → W → Prop}, Weight.Legible W same →
      ∀ {tables : LabelTables}, tables.Read → ∀ {graph : Graph W} {start : StateId}, graph.Counted →
      graph.WellFormed → graph.start = some start →
      ((∃ error, graph.toListing tables = .error (.symbols error)) ↔ ¬ graph.Named tables) ∧
      (graph.Named tables → (graph.toListing tables = .error (.unprintableStart start) ↔ graph.Hidden start)) ∧
      (graph.Named tables → ¬ graph.Hidden start → ∃ text, graph.toListing tables = .ok text ∧
        ∃ back, ofListing tables text = .ok back ∧ Restores same graph (Text.mentions text) back) := by
  refine ⟨LabelString.legible, Boolean.legible, ?_⟩
  intro W _ same legible tables read graph start counted formed begins
  obtain ⟨unnamed, hidden, printed⟩ := toListing_cases tables formed begins
  refine ⟨⟨?_, unnamed⟩, fun named => ⟨?_, hidden named⟩, fun named shown => ⟨_, printed named shown, ?_⟩⟩
  · intro given named
    obtain ⟨error, failed⟩ := given
    by_cases bare : graph.Hidden start
    · cases (hidden named bare).symm.trans failed
    · cases (printed named bare).symm.trans failed
  · intro failed
    by_contra shown
    cases (printed named shown).symm.trans failed
  · have small : graph.size ≤ UInt32.size := Nat.le_trans counted (by decide)
    have writable := named.writable formed small (formed.start start begins)
    refine ⟨_, ofListing_textOf legible read writable, ?_⟩
    rw [mentions_textOf legible read writable]
    exact ofLines_restores legible formed begins shown

/-- An arc from the start to a final state, and a state without arcs. -/
def strait : Graph (LabelString .left) where
  start := some 1
  states := #[{ final := some (.labels []) }, { arcs := #[⟨1, 7, .labels [3, 4], 0⟩] }, {}]

theorem strait_restored :
    let tables : LabelTables := { input := some (Symbols.empty.bind "a" 1) }
    ∃ text back, strait.toListing tables = .ok text ∧ ofListing tables text = .ok back ∧
      Restores (· = ·) strait (Text.mentions text) back := by
  intro tables
  obtain ⟨legible, _, restore⟩ := listings_restore
  have read : tables.Read := by
    rintro symbols (given | given)
    · exact ⟨"a 1".toList, congrArg Except.ok (Option.some.inj given)⟩
    · cases given
  have formed : strait.WellFormed := ⟨by rintro s ⟨⟩; decide, by decide⟩
  have named : strait.Named tables := by
    intro s arc leaves
    match s with
    | 1 =>
      obtain rfl := List.mem_singleton.mp leaves
      exact ⟨by rintro _ ⟨⟩; exact Option.some_ne_none _, nofun⟩
    | 0 | 2 | s + 3 => cases leaves
  have shown : ¬ strait.Hidden 1 := fun hidden => List.cons_ne_nil _ _ hidden.1.1
  obtain ⟨text, printed, back, listed, same⟩ := (restore (legible .left) read (by decide) formed rfl).2.2 named shown
  exact ⟨text, back, printed, listed, same⟩

end Graph

end Transducer
