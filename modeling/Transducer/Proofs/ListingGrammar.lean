import Mathlib.Data.Nat.Digits.Defs
import Transducer.Proofs.Recompiling
import Transducer.Proofs.Refusals

/-! The grammar of listings. A line is blank, or makes a state final, or is an arc, with or without a weight at its end.
A listing is read if all its lines are of the grammar, and otherwise the error tells of the first that is not. It is
never the graph that refuses a change, and what is read is the graph that the lines describe. -/

namespace Transducer

variable {W : Type}

namespace Numeral

/-- The field has the digits of the number. There may be zeros in front of them and a plus sign in front of all. -/
def Denotes (field : List Char) (word : UInt32) : Prop :=
  ∃ values : List Nat, values ≠ [] ∧ (∀ value ∈ values, value < 10) ∧
    (field = values.map digit ∨ field = '+' :: values.map digit) ∧ Nat.ofDigits 10 values.reverse = word.toNat

theorem digitValue?_eq_some {c : Char} {value : Nat} : digitValue? c = some value ↔ value < 10 ∧ c = digit value := by
  constructor
  · intro found
    unfold digitValue? at found
    split at found
    next range =>
      have low : 48 ≤ c.toNat := UInt32.le_iff_toNat_le.mp range.1
      have high : c.toNat ≤ 57 := UInt32.le_iff_toNat_le.mp range.2
      obtain rfl : c.toNat - 48 = value := Option.some.inj found
      have back : 48 + (c.toNat - 48) = c.toNat := Nat.add_sub_cancel' low
      refine ⟨by omega, ?_⟩
      show c = Char.ofNat (48 + (c.toNat - 48))
      rw [back, Char.ofNat_toNat]
    next => cases found
  · rintro ⟨small, rfl⟩
    exact (digit_spec value small).1

theorem valueAfter_eq_some {start number : Nat} {text : List Char} : valueAfter start text = some number ↔
    ∃ values : List Nat, (∀ value ∈ values, value < 10) ∧ text = values.map digit ∧
      values.foldl (fun number value => 10 * number + value) start = number := by
  induction text generalizing start with
  | nil => simp [valueAfter, eq_comm]
  | cons c text ih =>
    simp only [valueAfter, Option.bind_eq_bind, Option.bind_eq_some_iff, digitValue?_eq_some, ih]
    constructor
    · rintro ⟨value, ⟨small, rfl⟩, values, others, rfl, result⟩
      exact ⟨value :: values, List.forall_mem_cons.mpr ⟨small, others⟩, rfl, result⟩
    · rintro ⟨values, small, same, result⟩
      obtain ⟨value, values, rfl, rfl, rfl⟩ := List.map_eq_cons_iff.mp same.symm
      obtain ⟨first, others⟩ := List.forall_mem_cons.mp small
      exact ⟨value, ⟨first, rfl⟩, values, others, rfl, result⟩

theorem value?_eq_some {number : Nat} {text : List Char} : value? text = some number ↔
    ∃ values : List Nat, values ≠ [] ∧ (∀ value ∈ values, value < 10) ∧ text = values.map digit ∧
      Nat.ofDigits 10 values.reverse = number := by
  have value (values : List Nat) :
      values.foldl (fun number value => 10 * number + value) 0 = Nat.ofDigits 10 values.reverse := by
    rw [Nat.ofDigits_eq_foldr, List.foldr_reverse]
    simp only [Nat.cast_id, Nat.add_comm]
  unfold value?
  split
  next none => simp [none, eq_comm]
  next some =>
    simp only [valueAfter_eq_some, value]
    constructor
    · rintro ⟨values, small, rfl, result⟩
      exact ⟨values, by simpa using some, small, rfl, result⟩
    · rintro ⟨values, _, small, rfl, result⟩
      exact ⟨values, small, rfl, result⟩

/-- The text without a plus sign in front. -/
def unsigned : List Char → List Char
  | '+' :: rest => rest
  | text => text

theorem readWord?_eq (text : List Char) : readWord? text =
    (value? (unsigned text)).bind fun value =>
      if value < UInt32.size then some (UInt32.ofNat value) else none := by
  cases text with
  | nil => rfl
  | cons c rest =>
    by_cases plus : c = '+'
    · subst plus
      simp only [readWord?, unsigned]
      cases value? rest <;> rfl
    · simp only [readWord?, unsigned, List.cons.injEq, plus, false_and, imp_self, implies_true]
      cases value? (c :: rest) <;> rfl

/-- A plus sign is no digit, so it is known for a sign. -/
theorem unsigned_eq {field : List Char} {values : List Nat} (nonempty : values ≠ [])
    (small : ∀ value ∈ values, value < 10) :
    unsigned field = values.map digit ↔ field = values.map digit ∨ field = '+' :: values.map digit := by
  unfold unsigned
  split
  next rest =>
    constructor
    · rintro rfl
      exact .inr rfl
    · rintro (same | same)
      · obtain ⟨value, values, rfl, sign, -⟩ := List.map_eq_cons_iff.mp same.symm
        exact absurd sign (digit_spec value (small value List.mem_cons_self)).2.2.1
      · exact (List.cons.inj same).2
  next signless =>
    constructor
    · exact .inl
    · rintro (same | same)
      · exact same
      · exact absurd same (signless _)

/-- The numerals are the fields that denote a number of 32 bits. -/
theorem readWord?_eq_some {field : List Char} {word : UInt32} : readWord? field = some word ↔ Denotes field word := by
  rw [readWord?_eq, Option.bind_eq_some_iff]
  constructor
  · intro given
    obtain ⟨value, read, given⟩ := given
    split at given
    next inside =>
      obtain rfl := Option.some.inj given
      obtain ⟨values, nonempty, small, same, result⟩ := value?_eq_some.mp read
      have number : Nat.ofDigits 10 values.reverse = (UInt32.ofNat value).toNat := by
        rw [result, UInt32.toNat_ofNat_of_lt' inside]
      exact ⟨values, nonempty, small, (unsigned_eq nonempty small).mp same, number⟩
    next => cases given
  · intro denotes
    obtain ⟨values, nonempty, small, same, result⟩ := denotes
    refine ⟨word.toNat, value?_eq_some.mpr ⟨values, nonempty, small, (unsigned_eq nonempty small).mpr same, result⟩, ?_⟩
    rw [if_pos word.toNat_lt, UInt32.ofNat_toNat]

example : readWord? "+07".toList = readWord? "7".toList := by decide

end Numeral

namespace Line

variable {tables : LabelTables} {field : List Char} {fields : List (List Char)}

/-- A label is a symbol of the table, or a numeral where there is no table. -/
inductive Labels : Option Symbols → List Char → Label → Prop where
  | numeral {field : List Char} {label : Label} (denotes : Numeral.Denotes field label) : Labels none field label
  | symbol {symbols : Symbols} {field : List Char} {label : Label}
      (known : symbols.findLabel? (String.ofList field) = some label) : Labels (some symbols) field label

variable [Weight W] {line : Line W}

/-- A weight that is omitted is one. -/
inductive Weighs : List (List Char) → W → Prop where
  | omitted : Weighs [] Weight.one
  | given {field : List Char} {weight : W} (read : Weight.parse {} field = .ok weight) : Weighs [field] weight

/-- What the fields of a line tell. -/
inductive Tells (tables : LabelTables) : List (List Char) → Line W → Prop where
  | blank : Tells tables [] .blank
  | final {state : List Char} {rest : List (List Char)} {name : UInt32} {weight : W}
      (named : Numeral.Denotes state name) (weighs : Weighs rest weight) :
      Tells tables (state :: rest) (.final name.toNat weight)
  | arc {first second third fourth : List Char} {rest : List (List Char)} {source target : UInt32}
      {input output : Label} {weight : W} (leaves : Numeral.Denotes first source)
      (leads : Numeral.Denotes second target) (reads : Labels tables.input third input)
      (writes : Labels tables.output fourth output) (weighs : Weighs rest weight) :
      Tells tables (first :: second :: third :: fourth :: rest) (.arc source.toNat target.toNat input output weight)

theorem readState_ok {s : StateId} :
    readState field = .ok s ↔ ∃ name : UInt32, Numeral.Denotes field name ∧ name.toNat = s := by
  unfold readState
  cases found : Numeral.readWord? field with
  | none => simp [← Numeral.readWord?_eq_some, found]
  | some name => simp [← Numeral.readWord?_eq_some, found]

theorem readLabel_ok {table : Option Symbols} {label : Label} :
    readLabel table field = .ok label ↔ Labels table field label := by
  unfold readLabel
  cases table with
  | none =>
    have numeral : Labels none field label ↔ Numeral.Denotes field label :=
      ⟨fun labels => by cases labels; assumption, .numeral⟩
    rw [numeral, ← Numeral.readWord?_eq_some]
    dsimp only
    cases Numeral.readWord? field <;> simp
  | some symbols =>
    have symbol : Labels (some symbols) field label ↔ symbols.findLabel? (String.ofList field) = some label :=
      ⟨fun labels => by cases labels; assumption, .symbol⟩
    rw [symbol]
    dsimp only
    cases symbols.findLabel? (String.ofList field) <;> simp

theorem readWeight_ok {weight : W} : readWeight field = .ok weight ↔ Weighs [field] weight := by
  rw [readWeight, mapError_ok]
  exact ⟨.given, fun weighs => by cases weighs; assumption⟩

theorem omitted_ok {weight : W} : (.ok Weight.one : Except LineError W) = .ok weight ↔ Weighs [] weight := by
  constructor
  · rintro ⟨⟩
    exact .omitted
  · rintro ⟨⟩
    rfl

theorem readFinal_ok {state : List Char} {rest : List (List Char)} {weight : Except LineError W}
    (weighed : ∀ w, weight = .ok w ↔ Weighs rest w) (short : rest.length < 3) :
    readFinal state weight = .ok line ↔ Tells tables (state :: rest) line := by
  simp only [readFinal, except_bind_ok, readState_ok, weighed]
  constructor
  · rintro ⟨_, ⟨name, named, rfl⟩, weight, weighs, ⟨⟩⟩
    exact .final named weighs
  · intro tells
    cases tells with
    | final named weighs => exact ⟨_, ⟨_, named, rfl⟩, _, weighs, rfl⟩
    | arc leaves leads reads writes weighs =>
      simp only [List.length_cons] at short
      omega

theorem readArc_ok {first second third fourth : List Char} {rest : List (List Char)} {weight : Except LineError W}
    (weighed : ∀ w, weight = .ok w ↔ Weighs rest w) :
    readArc tables first second third fourth weight = .ok line ↔
      Tells tables (first :: second :: third :: fourth :: rest) line := by
  simp only [readArc, except_bind_ok, readState_ok, readLabel_ok, weighed]
  constructor
  · rintro ⟨_, ⟨source, leaves, rfl⟩, _, ⟨target, leads, rfl⟩, input, reads, output, writes, weight, weighs, ⟨⟩⟩
    exact .arc leaves leads reads writes weighs
  · intro tells
    cases tells with
    | arc leaves leads reads writes weighs =>
      exact ⟨_, ⟨_, leaves, rfl⟩, _, ⟨_, leads, rfl⟩, _, reads, _, writes, _, weighs, rfl⟩
    | final named weighs => cases weighs

/-- The lines that can be read are those of the grammar. -/
theorem ofFields_ok : ofFields tables fields = .ok line ↔ Tells tables fields line := by
  unfold ofFields
  split
  next => exact ⟨fun same => Except.ok.inj same ▸ .blank, fun tells => by cases tells; rfl⟩
  next => exact readFinal_ok (fun _ => omitted_ok) (by simp)
  next => exact readFinal_ok (fun _ => readWeight_ok) (by simp)
  next => exact readArc_ok fun _ => omitted_ok
  next => exact readArc_ok fun _ => readWeight_ok
  next none one two four five =>
    refine ⟨nofun, fun tells => ?_⟩
    cases tells with
    | blank => exact (none rfl).elim
    | final named weighs =>
      cases weighs with
      | omitted => exact (one _ rfl).elim
      | given read => exact (two _ _ rfl).elim
    | arc leaves leads reads writes weighs =>
      cases weighs with
      | omitted => exact (four _ _ _ _ rfl).elim
      | given read => exact (five _ _ _ _ _ rfl).elim

/-- The line is of the grammar. -/
def Legal (W : Type) [Weight W] (tables : LabelTables) (text : List Char) : Prop :=
  ∃ line : Line W, Tells tables (Text.fields text) line

theorem legal_iff {text : List Char} :
    Legal W tables text ↔ ∃ line : Line W, ofFields tables (Text.fields text) = .ok line := by
  simp only [Legal, ofFields_ok]

theorem not_legal_of_error {text : List Char} {reason : LineError}
    (refused : (ofFields tables (Text.fields text) : Except LineError (Line W)) = .error reason) :
    ¬ Legal W tables text := by
  intro legal
  obtain ⟨line, read⟩ := legal_iff.mp legal
  cases refused.symm.trans read

end Line

/-- Why a listing is not compiled if each change of the graph may be refused. -/
inductive DraftError where
  | listing (error : ListingError)
  | graph (error : GraphError)
deriving DecidableEq, Repr

namespace Draft

variable {draft : Draft W} {names : List StateId} {start : Option StateId} {content : StateId → State W}
  {lines : List (Line W)} {name s : StateId}

/-- Makes the state the start if there is none, and if the graph has it. -/
def startChecked (draft : Draft W) (s : StateId) : Except GraphError (Draft W) :=
  match draft.graph.start with
  | some _ => .ok draft
  | none => return { draft with graph := ← draft.graph.setStart s }

/-- Adds a line by changes that the graph checks. -/
def addChecked (draft : Draft W) : Line W → Except GraphError (Draft W)
  | .blank => .ok draft
  | .final name weight => do
    let (draft, state) := draft.state name
    let draft ← draft.startChecked state
    return { draft with graph := ← draft.graph.setFinal state weight }
  | .arc source target input output weight => do
    let (draft, source) := draft.state source
    let (draft, target) := draft.state target
    let draft ← draft.startChecked source
    return { draft with graph := ← draft.graph.addArc source ⟨input, output, weight, target⟩ }

def addLinesChecked [Weight W] (tables : LabelTables) (draft : Draft W) (number : Nat) :
    List (List Char) → Except DraftError (Draft W)
  | [] => .ok draft
  | line :: rest =>
    match Line.ofFields tables (Text.fields line) with
    | .ok line => do addLinesChecked tables (← (draft.addChecked line).mapError .graph) (number + 1) rest
    | .error reason => .error (.listing ⟨number, reason⟩)

theorem startChecked_eq (known : s < draft.graph.size) : draft.startChecked s = .ok (draft.startAt s) := by
  unfold startChecked startAt
  split
  next first found => rw [found, Option.some_or, ← found]
  next none =>
    rw [Graph.setStart, Graph.check_of_live known, none]
    rfl

/-- The state of a name is a state of the graph. -/
theorem Shows.state_lt (shown : Shows names start content draft) (name : StateId) :
    (draft.state name).2 < (draft.state name).1.graph.size := by
  have number := shown.numbers name
  unfold Draft.state
  split
  next s found =>
    rw [found] at number
    split at number
    next known =>
      obtain rfl := Option.some.inj number
      simpa [shown.graph, Graph.size] using List.idxOf_lt_length_of_mem known
    next => cases number
  next => simp [Graph.size, Graph.addState]

theorem size_le_state (draft : Draft W) (name : StateId) : draft.graph.size ≤ (draft.state name).1.graph.size := by
  unfold Draft.state
  split
  next => exact Nat.le_refl _
  next => simp [Graph.size, Graph.addState]

/-- The graph refuses no change that a line makes. -/
theorem Drawn.addChecked_eq (drawn : Drawn lines draft) (line : Line W) :
    draft.addChecked line = .ok (draft.add line) := by
  cases line with
  | blank => rfl
  | final name weight =>
    obtain ⟨next, state, named⟩ : ∃ next state, draft.state name = (next, state) := ⟨_, _, rfl⟩
    have inside : state < next.graph.size := by simpa only [named] using drawn.state_lt name
    have changed : (next.startAt state).graph.setFinal state weight =
        .ok ((next.startAt state).graph.modify state fun state => { state with final := some weight }) :=
      Graph.update_of_live inside
    rw [addChecked, Draft.add]
    simp only [named]
    exact except_bind_ok.mpr ⟨_, startChecked_eq inside, except_bind_ok.mpr ⟨_, changed, rfl⟩⟩
  | arc source target input output weight =>
    have before : Shows (noted (mentioned lines) source) _ _ (draft.state source).1 :=
      ((drawn.ahead (.arc source target input output weight)).state stateOf_unnamed).1
    obtain ⟨middle, s, first⟩ : ∃ middle s, draft.state source = (middle, s) := ⟨_, _, rfl⟩
    obtain ⟨next, t, second⟩ : ∃ next t, middle.state target = (next, t) := ⟨_, _, rfl⟩
    have targetInside : t < next.graph.size := by simpa only [first, second] using before.state_lt target
    have sourceInside : s < next.graph.size := by
      have earlier : s < middle.graph.size := by simpa only [first] using drawn.state_lt source
      exact Nat.lt_of_lt_of_le earlier (by simpa only [second] using middle.size_le_state target)
    have changed : (next.startAt s).graph.addArc s ⟨input, output, weight, t⟩ =
        .ok ((next.startAt s).graph.modify s fun state => state.addArc ⟨input, output, weight, t⟩) :=
      except_bind_ok.mpr ⟨_, Graph.check_of_live targetInside, Graph.update_of_live sourceInside⟩
    rw [addChecked, Draft.add]
    simp only [first, second]
    exact except_bind_ok.mpr ⟨_, startChecked_eq sourceInside, except_bind_ok.mpr ⟨_, changed, rfl⟩⟩

theorem Drawn.addLinesChecked_eq [Weight W] {tables : LabelTables} {number : Nat} {texts : List (List Char)}
    (drawn : Drawn lines draft) :
    draft.addLinesChecked tables number texts = (draft.addLines tables number texts).mapError .listing := by
  induction texts generalizing lines draft number with
  | nil => rfl
  | cons text texts ih =>
    unfold addLinesChecked addLines
    cases Line.ofFields (W := W) tables (Text.fields text) with
    | error reason => rfl
    | ok line =>
      simp only [drawn.addChecked_eq line]
      exact ih (drawn.add line)

/-- The error tells the number of the first line that is not of the grammar. -/
theorem addLines_error [Weight W] {tables : LabelTables} {number : Nat} {texts : List (List Char)}
    {error : ListingError} (failed : addLines tables draft number texts = .error error) :
    ∃ before bad after, texts = before ++ bad :: after ∧ (∀ text ∈ before, Line.Legal W tables text) ∧
      ¬ Line.Legal W tables bad ∧ error.line = number + before.length := by
  induction texts generalizing draft number with
  | nil => cases failed
  | cons text texts ih =>
    unfold addLines at failed
    split at failed
    next line read =>
      obtain ⟨before, bad, after, rfl, legal, illegal, same⟩ := ih failed
      have first : Line.Legal W tables text := Line.legal_iff.mpr ⟨line, read⟩
      refine ⟨text :: before, bad, after, rfl, List.forall_mem_cons.mpr ⟨first, legal⟩, illegal, ?_⟩
      rw [same, List.length_cons]
      omega
    next reason refused =>
      cases failed
      exact ⟨[], text, texts, rfl, List.forall_mem_nil _, Line.not_legal_of_error refused, rfl⟩

end Draft

theorem pairwise_eraseDups (names : List StateId) :
    names.eraseDups.Pairwise fun first second => names.idxOf first < names.idxOf second := by
  induction names using List.reverseRecOn with
  | nil => exact .nil
  | append_singleton names name ih =>
    have kept : names.eraseDups.Pairwise fun first second =>
        (names ++ [name]).idxOf first < (names ++ [name]).idxOf second := by
      refine ih.imp_of_mem fun first second less => ?_
      rwa [idxOf_of_extends (List.prefix_append _ _) (List.mem_eraseDups.mp first),
        idxOf_of_extends (List.prefix_append _ _) (List.mem_eraseDups.mp second)]
    rw [eraseDups_concat]
    unfold noted
    split
    next => exact kept
    next fresh =>
      have absent : name ∉ names := fun member => fresh (List.mem_eraseDups.mpr member)
      refine List.pairwise_append.mpr ⟨kept, List.pairwise_singleton _ _, fun first member last same => ?_⟩
      obtain rfl := List.mem_singleton.mp same
      have known := List.mem_eraseDups.mp member
      rw [idxOf_of_extends (List.prefix_append _ _) known, List.idxOf_append, if_neg absent]
      exact Nat.lt_add_left _ (List.idxOf_lt_length_of_mem known)

namespace Graph

variable {lines : List (Line W)} {graph : Graph W}

/-- The graph that lines describe, with the names of its states in their order. -/
structure Described (lines : List (Line W)) (names : List StateId) (graph : Graph W) : Prop where
  distinct : names.Nodup
  named : ∀ name, name ∈ names ↔ ∃ line ∈ lines, name ∈ line.names
  /-- By the first mention, where a line mentions the source before the target. -/
  ordered : names.Pairwise fun first second =>
    (lines.flatMap Line.names).idxOf first < (lines.flatMap Line.names).idxOf second
  sized : graph.size = names.length
  start : ∀ s, graph.start = some s ↔ s = 0 ∧ ∃ line ∈ lines, line ≠ .blank
  arcs : ∀ (s name : StateId), names[s]? = some name →
    graph.arcsFrom s = lines.filterMap (Line.arcOf? names.idxOf name)
  final : ∀ (s name : StateId), names[s]? = some name →
    graph.finalOf s = (lines.filterMap (Line.finalOf? name)).getLast?

theorem start_ofLines_iff {s : StateId} :
    (ofLines lines).start = some s ↔ s = 0 ∧ ∃ line ∈ lines, line ≠ .blank := by
  have speaks (line : Line W) : line ≠ .blank ↔ ∃ name, name ∈ line.names := by
    cases line with
    | blank => simp [Line.names]
    | final name weight => exact ⟨fun _ => ⟨name, List.mem_cons_self⟩, fun _ => by simp⟩
    | arc source target input output weight => exact ⟨fun _ => ⟨source, List.mem_cons_self⟩, fun _ => by simp⟩
  have first : (∃ line ∈ lines, line ≠ .blank) ↔ ∃ name, (mentioned lines).head? = some name := by
    constructor
    · rintro ⟨line, member, other⟩
      obtain ⟨name, named⟩ := (speaks line).mp other
      have mention : name ∈ mentioned lines := mem_mentioned.mpr ⟨line, member, named⟩
      exact ⟨_, List.head?_eq_some_head (List.ne_nil_of_mem mention)⟩
    · rintro ⟨name, found⟩
      obtain ⟨line, member, named⟩ := mem_mentioned.mp (List.mem_of_head? found)
      exact ⟨line, member, (speaks line).mpr ⟨name, named⟩⟩
  rw [first, ofLines, Option.map_eq_some_iff]
  constructor
  · rintro ⟨name, found, rfl⟩
    exact ⟨rfl, name, found⟩
  · rintro ⟨rfl, name, found⟩
    exact ⟨name, found, rfl⟩

theorem described_ofLines (lines : List (Line W)) : Described lines (mentioned lines) (ofLines lines) where
  distinct := nodup_eraseDups _
  named _ := mem_mentioned
  ordered := pairwise_eraseDups _
  sized := size_ofLines lines
  start _ := start_ofLines_iff
  arcs _ _ := arcsFrom_ofLines
  final _ _ := finalOf_ofLines

/-- The graph of a listing, where each change of the graph may be refused. -/
def ofListingChecked [Weight W] (tables : LabelTables) (text : List Char) : Except DraftError (Graph W) :=
  return (← Draft.addLinesChecked tables {} 1 (Text.lines text)).graph

theorem ofListingChecked_eq [Weight W] (tables : LabelTables) (text : List Char) :
    (ofListingChecked tables text : Except DraftError (Graph W)) = (ofListing tables text).mapError .listing := by
  rw [ofListingChecked, ofListing, Draft.begin_drawn.addLinesChecked_eq]
  cases Draft.addLines (W := W) tables {} 1 (Text.lines text) <;> rfl

theorem ofListing_error [Weight W] {tables : LabelTables} {text : List Char} {error : ListingError}
    (failed : (ofListing tables text : Except ListingError (Graph W)) = .error error) :
    Draft.addLines (W := W) tables {} 1 (Text.lines text) = .error error := by
  rw [ofListing] at failed
  cases added : Draft.addLines (W := W) tables {} 1 (Text.lines text) with
  | ok draft => rw [added] at failed; cases failed
  | error other => rw [added] at failed; cases failed; rfl

/-- A listing is read if and only if each of its lines is of the grammar. Otherwise the error tells the number of the
first line that is not, and no change of the graph is ever refused. What is read is the graph that the lines
describe. -/
theorem ofListing_settles [Weight W] (tables : LabelTables) (text : List Char) :
    ((∃ graph : Graph W, ofListing tables text = .ok graph) ↔
      ∀ line ∈ Text.lines text, Line.Legal W tables line) ∧
    (∀ error, (ofListing tables text : Except ListingError (Graph W)) = .error error →
      ∃ before bad after, Text.lines text = before ++ bad :: after ∧ (∀ line ∈ before, Line.Legal W tables line) ∧
        ¬ Line.Legal W tables bad ∧ error.line = before.length + 1) ∧
    (ofListingChecked tables text : Except DraftError (Graph W)) = (ofListing tables text).mapError .listing ∧
    ∀ graph : Graph W, ofListing tables text = .ok graph → ∃ lines names,
      List.Forall₂ (fun text line => Line.Tells tables (Text.fields text) line) (Text.lines text) lines ∧
      Described lines names graph := by
  have failure (error : ListingError)
      (failed : (ofListing tables text : Except ListingError (Graph W)) = .error error) :
      ∃ before bad after, Text.lines text = before ++ bad :: after ∧ (∀ line ∈ before, Line.Legal W tables line) ∧
        ¬ Line.Legal W tables bad ∧ error.line = before.length + 1 := by
    obtain ⟨before, bad, after, split, legal, illegal, same⟩ := Draft.addLines_error (ofListing_error failed)
    exact ⟨before, bad, after, split, legal, illegal, same.trans (Nat.add_comm _ _)⟩
  refine ⟨⟨fun given => ?_, fun legal => ?_⟩, failure, ofListingChecked_eq tables text, fun graph done => ?_⟩
  · obtain ⟨graph, done⟩ := given
    obtain ⟨lines, read, -⟩ := ofListing_ok.mp done
    have both := read.imp fun text line taken => And.intro (Line.legal_iff.mpr ⟨line, taken⟩) taken
    exact ((List.forall₂_and_left _ _).mp both).1
  · cases done : (ofListing tables text : Except ListingError (Graph W)) with
    | ok graph => exact ⟨graph, rfl⟩
    | error error =>
      obtain ⟨before, bad, after, split, -, illegal, -⟩ := failure error done
      exact absurd (legal bad (by simp [split])) illegal
  · obtain ⟨lines, read, rfl⟩ := ofListing_ok.mp done
    exact ⟨lines, mentioned lines, read.imp fun _ _ => Line.ofFields_ok.mp, described_ofLines lines⟩

end Graph

end Transducer
