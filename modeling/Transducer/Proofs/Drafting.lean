import Mathlib.Data.List.Induction
import Mathlib.Data.List.Nodup
import Mathlib.Logic.Function.Basic
import Transducer.Listing.Compile
import Transducer.Proofs.Parsing

/-! The graph that lines describe, told all at once. Its states are the names in the lines in the order in which
they first occur, and each has the arcs and the last of the final weights that the lines give to its name. The
draft that grows line by line comes to the same graph. -/

namespace Transducer

variable {W : Type}

namespace Line

/-- The states that a line names. -/
def names : Line W → List StateId
  | .blank => []
  | .final state _ => [state]
  | .arc source target _ _ _ => [source, target]

def finalOf? (name : StateId) : Line W → Option W
  | .final state weight => if state = name then some weight else none
  | _ => none

/-- The arc that a line gives to a state, with its target at its place. -/
def arcOf? (place : StateId → StateId) (name : StateId) : Line W → Option (Arc W)
  | .arc source target input output weight =>
    if source = name then some ⟨input, output, weight, place target⟩ else none
  | _ => none

end Line

/-- The states that lines name, in the order in which they are first named. -/
def mentioned (lines : List (Line W)) : List StateId := (lines.flatMap Line.names).eraseDups

def stateOf (place : StateId → StateId) (lines : List (Line W)) (name : StateId) : State W where
  final := (lines.filterMap (Line.finalOf? name)).getLast?
  arcs := (lines.filterMap (Line.arcOf? place name)).toArray

def Graph.ofLines (lines : List (Line W)) : Graph W where
  start := (mentioned lines).head?.map fun _ => 0
  states := ((mentioned lines).map (stateOf (mentioned lines).idxOf lines)).toArray

variable {names : List StateId} {name : StateId} {lines : List (Line W)} {line : Line W}

theorem mem_mentioned : name ∈ mentioned lines ↔ ∃ line ∈ lines, name ∈ line.names := by
  rw [mentioned, List.mem_eraseDups, List.mem_flatMap]

/-- The names with one more, unless it is there already. -/
def noted (names : List StateId) (name : StateId) : List StateId := if name ∈ names then names else names ++ [name]

theorem noted_extends (names : List StateId) (name : StateId) : names <+: noted names name := by
  unfold noted
  split
  next => exact List.prefix_refl _
  next => exact List.prefix_append _ _

theorem mem_noted {other : StateId} : other ∈ noted names name ↔ other ∈ names ∨ other = name := by
  unfold noted
  split
  next known =>
    constructor
    · exact .inl
    · rintro (member | rfl)
      · exact member
      · exact known
  next => simp

theorem nodup_noted (distinct : names.Nodup) : (noted names name).Nodup := by
  unfold noted
  split
  next => exact distinct
  next fresh => simpa using distinct.concat fresh

theorem idxOf_of_extends {more : List StateId} (leads : names <+: more) (member : name ∈ names) :
    more.idxOf name = names.idxOf name := by
  obtain ⟨rest, rfl⟩ := leads
  rw [List.idxOf_append, if_pos member]

theorem eraseDups_concat (names : List StateId) (name : StateId) :
    (names ++ [name]).eraseDups = noted names.eraseDups name := by
  rw [List.eraseDups_append]
  by_cases known : name ∈ names <;> simp [noted, List.removeAll, known, List.eraseDups_cons]

theorem nodup_eraseDups (names : List StateId) : names.eraseDups.Nodup := by
  induction names using List.reverseRecOn with
  | nil => exact .nil
  | append_singleton names name ih => exact eraseDups_concat names name ▸ nodup_noted ih

theorem head?_eraseDups (names : List StateId) : names.eraseDups.head? = names.head? := by
  cases names with
  | nil => rfl
  | cons name names => rw [List.eraseDups_cons, List.head?_cons, List.head?_cons]

theorem mentioned_concat : mentioned (lines ++ [line]) = line.names.foldl noted (mentioned lines) := by
  have note (names more : List StateId) : (names ++ more).eraseDups = more.foldl noted names.eraseDups := by
    induction more generalizing names with
    | nil => rw [List.append_nil, List.foldl_nil]
    | cons name more ih => rw [List.append_cons, ih, eraseDups_concat, List.foldl_cons]
  rw [mentioned, List.flatMap_append, List.flatMap_singleton, note]
  rfl

theorem mentioned_extends : mentioned lines <+: mentioned (lines ++ [line]) := by
  rw [mentioned_concat]
  cases line with
  | blank => exact List.prefix_refl _
  | final state weight => exact noted_extends _ _
  | arc source target input output weight => exact (noted_extends _ _).trans (noted_extends _ _)

/-- What lines say does not depend on where the states stand that they do not name. -/
theorem stateOf_congr {place place' : StateId → StateId} (same : ∀ s ∈ mentioned lines, place s = place' s) :
    stateOf place lines = stateOf place' lines := by
  funext name
  unfold stateOf
  congr 2
  apply List.filterMap_congr
  intro line member
  cases line with
  | arc source target input output weight =>
    have placed := same target (mem_mentioned.mpr ⟨_, member, by simp [Line.names]⟩)
    rw [Line.arcOf?, Line.arcOf?, placed]
  | _ => rfl

theorem stateOf_unnamed {place : StateId → StateId} (unnamed : name ∉ mentioned lines) :
    stateOf place lines name = {} := by
  have silent {line : Line W} (member : line ∈ lines) : name ∉ line.names := fun named =>
    unnamed (mem_mentioned.mpr ⟨line, member, named⟩)
  have finals : lines.filterMap (Line.finalOf? name) = [] := by
    rw [List.filterMap_eq_nil_iff]
    intro line member
    cases line with
    | final state weight => exact if_neg fun same => silent member (by simp [Line.names, same])
    | _ => rfl
  have arcs : lines.filterMap (Line.arcOf? place name) = [] := by
    rw [List.filterMap_eq_nil_iff]
    intro line member
    cases line with
    | arc source target input output weight => exact if_neg fun same => silent member (by simp [Line.names, same])
    | _ => rfl
  rw [stateOf, finals, arcs]
  rfl

theorem ofLines_getElem? {i : StateId} (found : (mentioned lines)[i]? = some name) :
    (Graph.ofLines lines).states[i]? = some (stateOf (mentioned lines).idxOf lines name) := by
  rw [Graph.ofLines, List.getElem?_toArray, List.getElem?_map, found, Option.map_some]

theorem ofLines_wellFormed (lines : List (Line W)) : (Graph.ofLines lines).WellFormed := by
  constructor
  case start =>
    intro s start
    obtain ⟨first, found, rfl⟩ := Option.map_eq_some_iff.mp start
    simpa [Graph.ofLines, Graph.size] using List.length_pos_of_mem (List.mem_of_head? found)
  case targets =>
    intro state member arc inside
    obtain ⟨name, _, rfl⟩ := List.mem_map.mp (List.mem_toArray.mp member)
    obtain ⟨line, listed, given⟩ := List.mem_filterMap.mp (List.mem_toArray.mp inside)
    cases line with
    | arc source target input output weight =>
      have named : target ∈ mentioned lines := mem_mentioned.mpr ⟨_, listed, by simp [Line.names]⟩
      obtain ⟨_, rfl⟩ : source = name ∧ ⟨input, output, weight, (mentioned lines).idxOf target⟩ = arc := by
        simpa [Line.arcOf?] using given
      simpa [Graph.ofLines, Graph.size] using List.idxOf_lt_length_of_mem named
    | _ => cases given

namespace Draft

variable {draft : Draft W} {start : Option StateId} {content : StateId → State W}

/-- The draft has these names and, under each of them, this state. -/
structure Shows (names : List StateId) (start : Option StateId) (content : StateId → State W) (draft : Draft W) :
    Prop where
  graph : draft.graph = { start, states := (names.map content).toArray }
  numbers : ∀ name, draft.states[name]? = if name ∈ names then some (names.idxOf name) else none
  distinct : names.Nodup

namespace Shows

theorem state (shown : Shows names start content draft) (unnamed : name ∉ names → content name = {}) :
    Shows (noted names name) start content (draft.state name).1 ∧
      (draft.state name).2 = (noted names name).idxOf name := by
  have number := shown.numbers name
  unfold Draft.state noted
  by_cases known : name ∈ names
  · rw [if_pos known] at number ⊢
    rw [number]
    exact ⟨shown, rfl⟩
  · rw [if_neg known] at number ⊢
    rw [number]
    have size : draft.graph.size = names.length := by simp [shown.graph, Graph.size]
    have last : (names ++ [name]).idxOf name = names.length := by simp [List.idxOf_append, known]
    refine ⟨⟨?_, fun other => ?_, ?_⟩, size.trans last.symm⟩
    · simp [Graph.addState, shown.graph, unnamed known]
    · rw [Std.HashMap.getElem?_insert, shown.numbers other, size]
      by_cases same : name = other
      · subst same
        simp [last]
      · by_cases earlier : other ∈ names <;> simp [same, Ne.symm same, earlier, List.idxOf_append]
    · simpa using shown.distinct.concat known

theorem startAt (shown : Shows names start content draft) (s : StateId) :
    Shows names (start.or (some s)) content (draft.startAt s) where
  graph := by rw [Draft.startAt, shown.graph]
  numbers := shown.numbers
  distinct := shown.distinct

theorem modify (shown : Shows names start content draft) (member : name ∈ names) (change : State W → State W) :
    Shows names start (Function.update content name (change (content name)))
      (draft.modify (names.idxOf name) change) where
  graph := by
    have states : (names.map content).toArray.modify (names.idxOf name) change =
        (names.map (Function.update content name (change (content name)))).toArray := by
      apply Array.ext_getElem?
      intro i
      rw [Array.getElem?_modify, List.getElem?_toArray, List.getElem?_toArray, List.getElem?_map, List.getElem?_map]
      split
      next here =>
        subst here
        simp [List.idxOf_lt_length_of_mem member]
      next other =>
        cases found : names[i]? with
        | none => rfl
        | some current =>
          obtain ⟨inside, rfl⟩ := List.getElem?_eq_some_iff.mp found
          have different : names[i] ≠ name := fun same => other (by rw [← same, shown.distinct.idxOf_getElem])
          simp [different]
    rw [Draft.modify, shown.graph, Graph.modify, states]
  numbers := shown.numbers
  distinct := shown.distinct

end Shows

/-- The draft has what these lines describe. -/
abbrev Drawn (lines : List (Line W)) (draft : Draft W) : Prop :=
  Shows (mentioned lines) ((mentioned lines).head?.map fun _ => 0) (stateOf (mentioned lines).idxOf lines) draft

/-- The first state that is named is the start. -/
theorem start_concat {names more : List StateId} {s : StateId} (leads : names <+: more) (member : s ∈ more)
    (first : names = [] → more.head? = some s) :
    (names.head?.map fun _ => 0).or (some (more.idxOf s)) = more.head?.map fun _ => 0 := by
  obtain ⟨rest, rfl⟩ := leads
  cases names with
  | nil =>
    obtain ⟨rest, rfl⟩ := List.head?_eq_some_iff.mp (first rfl)
    simp
  | cons name names => rfl

theorem begin_drawn : Drawn [] ({} : Draft W) where
  graph := rfl
  numbers name := by simp [mentioned]
  distinct := .nil

/-- The state of a name after one more line. -/
theorem stateOf_concat (place : StateId → StateId) (lines : List (Line W)) (line : Line W) (name : StateId) :
    stateOf place (lines ++ [line]) name =
      { final := (line.finalOf? name).or (stateOf place lines name).final
        arcs := (stateOf place lines name).arcs ++ (line.arcOf? place name).toList.toArray } := by
  unfold stateOf
  congr 1
  · cases final : line.finalOf? name <;> simp [final]
  · cases arc : line.arcOf? place name <;> simp [arc]

/-- The names that the next line adds stand behind those that are there. -/
theorem Drawn.ahead (drawn : Drawn lines draft) (line : Line W) :
    Shows (mentioned lines) ((mentioned lines).head?.map fun _ => 0)
      (stateOf (mentioned (lines ++ [line])).idxOf lines) draft := by
  have same : stateOf (mentioned lines).idxOf lines = stateOf (mentioned (lines ++ [line])).idxOf lines :=
    stateOf_congr fun s member => (idxOf_of_extends mentioned_extends member).symm
  exact same ▸ drawn

theorem Drawn.add (drawn : Drawn lines draft) (line : Line W) : Drawn (lines ++ [line]) (draft.add line) := by
  have ahead := drawn.ahead line
  unfold Drawn
  cases line with
  | blank =>
    have grown : mentioned (lines ++ [.blank]) = mentioned lines := mentioned_concat
    have content : stateOf (mentioned lines).idxOf (lines ++ [.blank]) = stateOf (mentioned lines).idxOf lines := by
      funext name
      simp [stateOf_concat, Line.finalOf?, Line.arcOf?]
    rw [grown, content]
    exact drawn
  | final name weight =>
    have grown : mentioned (lines ++ [.final name weight]) = noted (mentioned lines) name := mentioned_concat
    generalize mentioned (lines ++ [.final name weight]) = more at grown ahead ⊢
    have member : name ∈ more := grown ▸ mem_noted.mpr (.inr rfl)
    obtain ⟨shown, number⟩ := ahead.state stateOf_unnamed
    rw [← grown] at shown number
    have first (none : mentioned lines = []) : more.head? = some name := by simp [grown, noted, none]
    have start := start_concat (grown ▸ noted_extends _ _) member first
    have content : Function.update (stateOf more.idxOf lines) name
          { stateOf more.idxOf lines name with final := some weight } =
        stateOf more.idxOf (lines ++ [.final name weight]) := by
      funext other
      rw [stateOf_concat]
      by_cases same : name = other
      · subst same
        simp [Line.finalOf?, Line.arcOf?]
      · simp [Line.finalOf?, Line.arcOf?, same, Ne.symm same]
    rw [← start, ← content, Draft.add]
    simp only [number]
    exact (shown.startAt _).modify member fun state => { state with final := some weight }
  | arc source target input output weight =>
    have grown : mentioned (lines ++ [.arc source target input output weight]) =
        noted (noted (mentioned lines) source) target := mentioned_concat
    generalize mentioned (lines ++ [.arc source target input output weight]) = more at grown ahead ⊢
    obtain ⟨before, sourceNumber⟩ := ahead.state stateOf_unnamed
    have unnamed (fresh : target ∉ noted (mentioned lines) source) : stateOf more.idxOf lines target = {} :=
      stateOf_unnamed fun known => fresh (mem_noted.mpr (.inl known))
    obtain ⟨shown, targetNumber⟩ := before.state unnamed
    rw [← grown] at shown targetNumber
    -- The source has its number before the target is named, and naming the target does not change it.
    have known : source ∈ noted (mentioned lines) source := mem_noted.mpr (.inr rfl)
    have leads : noted (mentioned lines) source <+: more := grown ▸ noted_extends _ _
    have member : source ∈ more := leads.subset known
    rw [← idxOf_of_extends leads known] at sourceNumber
    have first (none : mentioned lines = []) : more.head? = some source := by
      simp only [none, noted, List.not_mem_nil, if_false, List.nil_append] at leads
      obtain ⟨rest, rfl⟩ := leads
      rfl
    have start := start_concat ((noted_extends _ _).trans leads) member first
    have content : Function.update (stateOf more.idxOf lines) source
          ((stateOf more.idxOf lines source).addArc ⟨input, output, weight, more.idxOf target⟩) =
        stateOf more.idxOf (lines ++ [.arc source target input output weight]) := by
      funext other
      rw [stateOf_concat]
      by_cases same : source = other
      · subst same
        simp [Line.finalOf?, Line.arcOf?, State.addArc]
      · simp [Line.finalOf?, Line.arcOf?, same, Ne.symm same]
    rw [← start, ← content, Draft.add]
    simp only [sourceNumber, targetNumber]
    exact (shown.startAt _).modify member fun state => state.addArc ⟨input, output, weight, more.idxOf target⟩

theorem foldl_add_drawn (lines : List (Line W)) : Drawn lines (lines.foldl add {}) := by
  induction lines using List.reverseRecOn with
  | nil => exact begin_drawn
  | append_singleton lines line ih => rw [List.foldl_append]; exact ih.add line

theorem addLines_ok [Weight W] {tables : LabelTables} {draft result : Draft W} {number : Nat}
    {texts : List (List Char)} : addLines tables draft number texts = .ok result ↔
      ∃ lines, List.Forall₂ (fun text line => Line.ofFields tables (Text.fields text) = .ok line) texts lines ∧
        result = lines.foldl add draft := by
  induction texts generalizing draft number with
  | nil => simp [addLines, eq_comm]
  | cons text texts ih =>
    unfold addLines
    cases read : Line.ofFields (W := W) tables (Text.fields text) with
    | error reason => simp [List.forall₂_cons_left_iff, read]
    | ok line =>
      simp only [ih, List.forall₂_cons_left_iff, read]
      constructor
      · intro given
        obtain ⟨lines, others, rfl⟩ := given
        exact ⟨line :: lines, ⟨line, lines, rfl, others, rfl⟩, rfl⟩
      · intro given
        obtain ⟨_, ⟨_, lines, ⟨⟩, others, rfl⟩, rfl⟩ := given
        exact ⟨lines, others, rfl⟩

end Draft

/-- A listing is read if each of its lines is, and it describes what its lines do. -/
theorem Graph.ofListing_ok [Weight W] {tables : LabelTables} {text : List Char} {graph : Graph W} :
    Graph.ofListing tables text = .ok graph ↔
      ∃ lines,
        List.Forall₂ (fun text line => Line.ofFields tables (Text.fields text) = .ok line) (Text.lines text) lines ∧
        graph = ofLines lines := by
  simp only [Graph.ofListing, except_bind_ok, Draft.addLines_ok]
  constructor
  · intro given
    obtain ⟨_, ⟨lines, read, rfl⟩, ⟨⟩⟩ := given
    exact ⟨lines, read, (Draft.foldl_add_drawn lines).graph⟩
  · intro given
    obtain ⟨lines, read, rfl⟩ := given
    exact ⟨_, ⟨lines, read, rfl⟩, congrArg Except.ok (Draft.foldl_add_drawn lines).graph⟩

end Transducer
