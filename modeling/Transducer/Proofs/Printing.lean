import Transducer.Listing.Print
import Transducer.Proofs.Drafting
import Transducer.Proofs.GraphPaths
import Transducer.Proofs.TextFields

/-! What is printed for a graph. Every state says its arcs and then its final weight, each in a line of its own, and
the listing is these lines from the start on. It fails for a label without a symbol, and for a start that says
nothing while another state does. -/

namespace Transducer

variable {W : Type} {graph : Graph W} {s start : StateId}

/-- The line that an arc is written in. -/
def Arc.line (source : StateId) (arc : Arc W) : Line W := .arc source arc.target arc.input arc.output arc.weight

namespace Graph

/-- The final weight of a state, none if there is no such state. -/
def finalOf (graph : Graph W) (s : StateId) : Option W := (graph.states[s]?).bind State.final

def linesOf (graph : Graph W) (s : StateId) : List (Line W) :=
  (graph.arcsFrom s).map (Arc.line s) ++ ((graph.finalOf s).map (Line.final s)).toList

/-- The states that are listed after the start. -/
def others (graph : Graph W) (start : StateId) : List StateId := (List.range graph.size).filter (· ≠ start)

/-- The states in the order in which they are listed. -/
def listed (graph : Graph W) (start : StateId) : List StateId := start :: graph.others start

def linesFrom (graph : Graph W) (start : StateId) : List (Line W) := (graph.listed start).flatMap graph.linesOf

/-- The state has no arcs and is not final. -/
def Bare (graph : Graph W) (s : StateId) : Prop := graph.arcsFrom s = [] ∧ graph.finalOf s = none

theorem finalOf_of_getElem? {state : State W} (found : graph.states[s]? = some state) :
    graph.finalOf s = state.final := by
  rw [finalOf, found, Option.bind_some]

theorem linesOf_eq_nil : graph.linesOf s = [] ↔ graph.Bare s := by
  simp [linesOf, Bare]

theorem bare_of_size_le (outside : graph.size ≤ s) : graph.Bare s :=
  ⟨graph.arcsFrom_of_size_le outside, by rw [finalOf, Array.getElem?_eq_none outside, Option.bind_none]⟩

theorem mem_listed (inside : start < graph.size) : s ∈ graph.listed start ↔ s < graph.size := by
  by_cases same : s = start
  · simp [listed, same, inside]
  · simp [listed, others, same]

theorem nodup_listed (graph : Graph W) (start : StateId) : (graph.listed start).Nodup :=
  List.nodup_cons.mpr ⟨by simp [others], List.nodup_range.filter _⟩

theorem mem_linesOf {line : Line W} : line ∈ graph.linesOf s ↔
    (∃ arc ∈ graph.arcsFrom s, arc.line s = line) ∨ ∃ weight ∈ graph.finalOf s, .final s weight = line := by
  simp [linesOf]

theorem mem_linesFrom (inside : start < graph.size) {line : Line W} :
    line ∈ graph.linesFrom start ↔ ∃ s, line ∈ graph.linesOf s := by
  rw [linesFrom, List.mem_flatMap]
  constructor
  · intro given
    obtain ⟨s, _, member⟩ := given
    exact ⟨s, member⟩
  · intro given
    obtain ⟨s, member⟩ := given
    have known : s < graph.size := by
      by_contra outside
      have bare := linesOf_eq_nil.mpr (graph.bare_of_size_le (Nat.le_of_not_lt outside))
      rw [bare] at member
      cases member
    exact ⟨s, (mem_listed inside).mpr known, member⟩

/-- The state is final or at one end of an arc. -/
def Occurs (graph : Graph W) (s : StateId) : Prop := ¬ graph.Bare s ∨ ∃ source, graph.Edge source s

theorem Occurs.lt (formed : graph.WellFormed) (occurs : graph.Occurs s) : s < graph.size := by
  rcases occurs with speaks | ⟨source, edge⟩
  · by_contra outside
    exact speaks (bare_of_size_le (Nat.le_of_not_lt outside))
  · exact formed.edge_target_lt edge

theorem mem_mentioned_linesFrom (inside : start < graph.size) :
    s ∈ mentioned (graph.linesFrom start) ↔ graph.Occurs s := by
  simp only [mem_mentioned, mem_linesFrom inside, Occurs]
  constructor
  · intro given
    obtain ⟨line, ⟨t, member⟩, named⟩ := given
    rcases mem_linesOf.mp member with ⟨arc, leaves, rfl⟩ | ⟨weight, _, rfl⟩
    · rcases List.mem_pair.mp named with rfl | rfl
      · exact .inl fun bare => List.not_mem_nil (bare.1 ▸ leaves)
      · exact .inr ⟨t, arc, leaves, rfl⟩
    · obtain rfl := List.mem_singleton.mp named
      refine .inl fun bare => ?_
      rw [linesOf_eq_nil.mpr bare] at member
      cases member
  · intro given
    rcases given with speaks | ⟨t, arc, leaves, rfl⟩
    · obtain ⟨line, member⟩ := List.exists_mem_of_ne_nil _ (mt linesOf_eq_nil.mp speaks)
      refine ⟨line, ⟨s, member⟩, ?_⟩
      rcases mem_linesOf.mp member with ⟨arc, _, rfl⟩ | ⟨weight, _, rfl⟩
      · exact List.mem_cons_self
      · exact List.mem_singleton_self s
    · exact ⟨arc.line t, ⟨t, mem_linesOf.mpr (.inl ⟨arc, leaves, rfl⟩)⟩, by simp [Arc.line, Line.names]⟩

/-- What is taken only from lines of one state is taken from its own. -/
theorem filterMap_linesFrom {α : Type} {take : Line W → Option α} (inside : start < graph.size) (known : s < graph.size)
    (other : ∀ t ≠ s, (graph.linesOf t).filterMap take = []) :
    (graph.linesFrom start).filterMap take = (graph.linesOf s).filterMap take := by
  have general (order : List StateId) (distinct : order.Nodup) (member : s ∈ order) :
      order.flatMap (fun t => (graph.linesOf t).filterMap take) = (graph.linesOf s).filterMap take := by
    induction order with
    | nil => cases member
    | cons t order ih =>
      obtain ⟨absent, distinct⟩ := List.nodup_cons.mp distinct
      rw [List.flatMap_cons]
      by_cases same : t = s
      · subst same
        rw [List.flatMap_eq_nil_iff.mpr fun u later => other u fun same => absent (same ▸ later), List.append_nil]
      · have later := (List.mem_cons.mp member).resolve_left (Ne.symm same)
        rw [other t same, List.nil_append, ih distinct later]
  rw [linesFrom, List.filterMap_flatMap]
  exact general _ (nodup_listed graph start) ((mem_listed inside).mpr known)

end Graph

/-- A label that its table, if there is one, has a symbol for. -/
def Named (table : Option Symbols) (label : Label) : Prop := ∀ symbols ∈ table, symbols.findSymbol? label ≠ none

/-- Every label of the line has a name. -/
def Line.Named (tables : LabelTables) : Line W → Prop
  | .arc _ _ input output _ => Transducer.Named tables.input input ∧ Transducer.Named tables.output output
  | _ => True

def Graph.Named (graph : Graph W) (tables : LabelTables) : Prop :=
  ∀ s, ∀ arc ∈ graph.arcsFrom s, Transducer.Named tables.input arc.input ∧ Transducer.Named tables.output arc.output

/-- The text of a label that has a name. -/
def labelText (table : Option Symbols) (label : Label) : List Char :=
  match table with
  | some symbols => ((symbols.findSymbol? label).map String.toList).getD []
  | none => Numeral.digits label.toNat

/-- Naming decides: where all labels have names the result is the text, and otherwise it is an error about a table. -/
def Settles {α : Type} (result : Except PrintError α) (named : Prop) (text : α) : Prop :=
  (named → result = .ok text) ∧ (¬ named → ∃ error, result = .error (.symbols error))

namespace Settles

variable {α β : Type} {result : Except PrintError α} {named : Prop} {text : α}

theorem ok (text : α) : Settles (.ok text) True text := ⟨fun _ => rfl, fun unnamed => absurd trivial unnamed⟩

theorem bind {next : α → Except PrintError β} {named' : Prop} {text' : β} (first : Settles result named text)
    (second : Settles (next text) named' text') : Settles (result >>= next) (named ∧ named') text' := by
  constructor
  · intro both
    rw [first.1 both.1]
    exact second.1 both.2
  · intro unnamed
    by_cases early : named
    · rw [first.1 early]
      exact second.2 fun late => unnamed ⟨early, late⟩
    · obtain ⟨error, failed⟩ := first.2 early
      exact ⟨error, by rw [failed]; rfl⟩

theorem map (first : Settles result named text) (f : α → β) :
    Settles (result >>= fun value => pure (f value)) named (f text) := by
  constructor
  · intro given
    rw [first.1 given]
    rfl
  · intro unnamed
    obtain ⟨error, failed⟩ := first.2 unnamed
    exact ⟨error, by rw [failed]; rfl⟩

theorem congr {named' : Prop} (settles : Settles result named text) (same : named ↔ named') :
    Settles result named' text :=
  ⟨fun given => settles.1 (same.mpr given), fun unnamed => settles.2 (mt same.mp unnamed)⟩

theorem mapM {items : List α} {print : α → Except PrintError β} {named : α → Prop} {text : α → β}
    (all : ∀ item ∈ items, Settles (print item) (named item) (text item)) :
    Settles (items.mapM print) (∀ item ∈ items, named item) (items.map text) := by
  induction items with
  | nil => exact (Settles.ok []).congr (by simp)
  | cons item items ih =>
    obtain ⟨first, others⟩ := List.forall_mem_cons.mp all
    rw [List.mapM_cons]
    refine (first.bind ((ih others).map (text item :: ·))).congr ?_
    rw [List.forall_mem_cons]

end Settles

namespace Line

variable [Weight W] {tables : LabelTables}

/-- The fields of a line. -/
def words (tables : LabelTables) : Line W → List (List Char)
  | .blank => []
  | .final state weight => Numeral.digits state :: weightFields weight
  | .arc source target input output weight =>
    [Numeral.digits source, Numeral.digits target, labelText tables.input input, labelText tables.output output] ++
      weightFields weight

theorem labelField_settles (table : Option Symbols) (label : Label) :
    Settles (labelField table label) (Transducer.Named table label) (labelText table label) := by
  unfold labelField labelText Transducer.Named
  cases table with
  | none => exact (Settles.ok _).congr (by simp)
  | some symbols =>
    cases found : symbols.findSymbol? label with
    | some symbol =>
      have named : ∀ table ∈ some symbols, table.findSymbol? label ≠ none := by simp [found]
      exact ⟨fun _ => by simp [found], absurd named⟩
    | none => exact ⟨fun named => absurd found (named symbols rfl), fun _ => ⟨.unnamedLabel label, by simp [found]⟩⟩

theorem ofArc_settles (source : StateId) (arc : Arc W) :
    Settles (ofArc tables source arc) ((arc.line source).Named tables) (ofTabbed ((arc.line source).words tables)) :=
  (labelField_settles tables.input arc.input).bind ((labelField_settles tables.output arc.output).map _)

end Line

namespace Graph

variable {tables : LabelTables}

theorem named_iff (inside : start < graph.size) : graph.Named tables ↔
    (∀ line ∈ graph.linesOf start, line.Named tables) ∧
      ∀ s ∈ graph.others start, ∀ line ∈ graph.linesOf s, line.Named tables := by
  have lines (s : StateId) : (∀ line ∈ graph.linesOf s, line.Named tables) ↔
      ∀ arc ∈ graph.arcsFrom s, (arc.line s).Named tables := by
    simp only [linesOf, List.forall_mem_append, List.forall_mem_map]
    cases graph.finalOf s <;> simp [Line.Named]
  simp only [lines]
  rw [← List.forall_mem_cons (p := fun s => ∀ arc ∈ graph.arcsFrom s, (arc.line s).Named tables)]
  constructor
  · exact fun named s _ => named s
  · intro named s arc member
    by_cases known : s < graph.size
    · exact named s ((mem_listed inside).mpr known) arc member
    · rw [graph.arcsFrom_of_size_le (Nat.le_of_not_lt known)] at member
      cases member

/-- The start says nothing although another state does. -/
def Hidden (graph : Graph W) (start : StateId) : Prop := graph.Bare start ∧ ∃ s ≠ start, ¬ graph.Bare s

theorem hidden_iff : graph.Hidden start ↔
    graph.linesOf start = [] ∧ (graph.others start).flatMap graph.linesOf ≠ [] := by
  rw [Hidden, ← linesOf_eq_nil, and_congr_right_iff]
  intro bare
  simp only [ne_eq, List.flatMap_eq_nil_iff, not_forall, ← linesOf_eq_nil]
  constructor
  · intro given
    obtain ⟨s, other, speaks⟩ := given
    have known : s < graph.size := by
      by_contra outside
      exact speaks (linesOf_eq_nil.mpr (bare_of_size_le (Nat.le_of_not_lt outside)))
    exact ⟨s, by simp [others, known, other], speaks⟩
  · intro given
    obtain ⟨s, _, speaks⟩ := given
    exact ⟨s, fun same => speaks (same ▸ bare), speaks⟩

theorem head?_names {line : Line W} (member : line ∈ graph.linesOf s) : line.names.head? = some s := by
  rcases mem_linesOf.mp member with ⟨arc, _, rfl⟩ | ⟨weight, _, rfl⟩ <;> rfl

/-- The first state that is named is the start, if any is. -/
theorem head?_mentioned (shown : ¬ graph.Hidden start) :
    ∀ s ∈ (mentioned (graph.linesFrom start)).head?, s = start := by
  intro s first
  rw [mentioned, head?_eraseDups, linesFrom, listed, List.flatMap_cons, List.flatMap_append] at first
  cases own : graph.linesOf start with
  | nil =>
    -- A start without lines that is not hidden leaves no line at all, so nothing is named.
    have silent : (graph.others start).flatMap graph.linesOf = [] := by
      by_contra speaks
      exact shown (hidden_iff.mpr ⟨own, speaks⟩)
    rw [own, silent] at first
    cases first
  | cons line lines =>
    have head : line.names.head? = some start := head?_names (own ▸ List.mem_cons_self)
    rw [own, List.flatMap_cons, List.append_assoc, List.head?_append, head] at first
    exact (Option.some.inj first).symm

variable [Weight W]

/-- The text of one state or of several. -/
def textOf (tables : LabelTables) (lines : List (Line W)) : List Char :=
  lines.flatMap fun line => Line.ofTabbed (line.words tables)

theorem textOf_eq_nil {lines : List (Line W)} : textOf tables lines = [] ↔ lines = [] := by
  have some (line : Line W) : Line.ofTabbed (line.words tables) ≠ [] := by simp [Line.ofTabbed_eq]
  cases lines <;> simp [textOf, some]

theorem textOf_append (lines more : List (Line W)) :
    textOf tables (lines ++ more) = textOf tables lines ++ textOf tables more :=
  List.flatMap_append

theorem listState_settles (inside : s < graph.size) :
    Settles (graph.listState tables s) (∀ line ∈ graph.linesOf s, line.Named tables)
      (textOf tables (graph.linesOf s)) := by
  obtain ⟨state, found⟩ := exists_state inside
  have known : (graph.state s).mapError PrintError.graph = .ok state := by
    rw [Graph.state, found]
    rfl
  have arcs : Settles (state.arcs.toList.mapM (Line.ofArc tables s))
      (∀ arc ∈ state.arcs.toList, (arc.line s).Named tables)
      (state.arcs.toList.map fun arc => Line.ofTabbed ((arc.line s).words tables)) :=
    .mapM fun arc _ => Line.ofArc_settles s arc
  have final : (state.final.map (Line.ofFinal s)).getD [] =
      textOf tables (state.final.map (Line.final s)).toList := by
    cases state.final <;> simp [textOf, Line.ofFinal, Line.words]
  have text : (state.arcs.toList.map fun arc => Line.ofTabbed ((arc.line s).words tables)).flatten ++
      (state.final.map (Line.ofFinal s)).getD [] = textOf tables (graph.linesOf s) := by
    rw [linesOf, arcsFrom_of_getElem? found, finalOf_of_getElem? found, final]
    simp [textOf, List.flatMap_def, Function.comp_def]
  have listed := arcs.map fun texts => texts.flatten ++ (state.final.map (Line.ofFinal s)).getD []
  rw [text] at listed
  unfold listState
  rw [known]
  refine listed.congr ?_
  simp only [linesOf, arcsFrom_of_getElem? found, finalOf_of_getElem? found, List.forall_mem_append,
    List.forall_mem_map]
  cases state.final <;> simp [Line.Named]

/-- Whether a graph is printed, and as what. -/
theorem toListing_cases (tables : LabelTables) (formed : graph.WellFormed) (begins : graph.start = some start) :
    (¬ graph.Named tables → ∃ error, graph.toListing tables = .error (.symbols error)) ∧
    (graph.Named tables → graph.Hidden start → graph.toListing tables = .error (.unprintableStart start)) ∧
    (graph.Named tables → ¬ graph.Hidden start →
      graph.toListing tables = .ok (textOf tables (graph.linesFrom start))) := by
  have inside := formed.start start begins
  have unfolded : graph.toListing tables = graph.listState tables start >>= fun first =>
      (graph.others start).mapM (graph.listState tables) >>= fun texts =>
        if first.isEmpty && !texts.flatten.isEmpty then .error (.unprintableStart start)
        else .ok (first ++ texts.flatten) := by
    rw [toListing, begins]
    rfl
  have first : Settles (graph.listState tables start) _ _ := listState_settles inside
  have rest : Settles ((graph.others start).mapM (graph.listState tables)) _ _ :=
    .mapM fun s member => listState_settles (List.mem_range.mp (List.mem_filter.mp member).1)
  have restText : ((graph.others start).map fun s => textOf tables (graph.linesOf s)).flatten =
      textOf tables ((graph.others start).flatMap graph.linesOf) := by
    rw [textOf, List.flatMap_assoc, List.flatMap_def]
    rfl
  rw [unfolded, named_iff inside, hidden_iff]
  refine ⟨fun unnamed => ?_, fun named hidden => ?_, fun named shown => ?_⟩
  · by_cases early : ∀ line ∈ graph.linesOf start, line.Named tables
    · obtain ⟨error, failed⟩ := rest.2 fun late => unnamed ⟨early, late⟩
      exact ⟨error, by rw [first.1 early, failed]; rfl⟩
    · obtain ⟨error, failed⟩ := first.2 early
      exact ⟨error, by rw [failed]; rfl⟩
  · rw [first.1 named.1, rest.1 named.2]
    simp only [bind, Except.bind, restText]
    exact if_pos (by simpa [textOf_eq_nil] using hidden)
  · rw [first.1 named.1, rest.1 named.2]
    simp only [bind, Except.bind, restText, ← textOf_append]
    exact if_neg (by simpa [textOf_eq_nil] using shown)

end Graph

end Transducer
