import Transducer.Proofs.OrderComposition
import Transducer.Proofs.Recording
import Transducer.Weight.Boolean

/-! Sorting looks at nothing but where the arcs lead. A search of a graph takes the same steps as a search of the bare
graph, in which arcs and states carry nothing, so graphs with the same start and the same targets are sorted alike,
whatever their labels and weights are and of whatever type. -/

namespace Transducer

variable {W V : Type}

def Arc.bare (arc : Arc W) : Arc Unit := ⟨0, 0, (), arc.target⟩

def State.bare (state : State W) : State Unit := { arcs := state.arcs.map Arc.bare }

/-- The graph without final states, labels and weights. -/
def Graph.bare (graph : Graph W) : Graph Unit := { start := graph.start, states := graph.states.map State.bare }

def Event.bare : Event W → Event Unit
  | .discover state root => .discover state root
  | .treeArc source arc => .treeArc source arc.bare
  | .backArc source arc => .backArc source arc.bare
  | .crossArc source arc => .crossArc source arc.bare
  | .finish state parent => .finish state parent
  | .done => .done

def Frame.bare (frame : Frame W) : Frame Unit := ⟨frame.state, frame.pending.map Arc.bare⟩

def Search.bare (search : Search W) : Search Unit where
  colors := search.colors
  roots := search.roots
  root := search.root
  path := search.path.map Frame.bare
  entering := search.entering
  running := search.running

def Step.bare : Step W → Step Unit
  | .pass next => .pass next.bare
  | .ask event next => .ask event.bare fun answer => (next answer).bare
  | .tell event next => .tell event.bare next.bare
  | .fail state => .fail state
  | .stop => .stop

namespace Graph

theorem size_bare (graph : Graph W) : graph.bare.size = graph.size := Array.size_map

theorem arcsFrom_bare (graph : Graph W) (s : StateId) : graph.bare.arcsFrom s = (graph.arcsFrom s).map Arc.bare := by
  have found : graph.bare.states[s]? = (graph.states[s]?).map State.bare := Array.getElem?_map
  unfold arcsFrom
  rw [found]
  cases graph.states[s]? with
  | none => rfl
  | some state => exact Array.toList_map

theorem edge_bare (graph : Graph W) (source target : StateId) : graph.bare.Edge source target ↔ graph.Edge source target := by
  simp [Edge, arcsFrom_bare, Arc.bare]

theorem isSorted_bare (graph : Graph W) : graph.bare.isSorted = graph.isSorted := by
  rw [Bool.eq_iff_iff, isSorted_iff, isSorted_iff]
  simp only [Ascending, edge_bare]

theorem wellFormed_bare (graph : Graph W) : graph.bare.WellFormed ↔ graph.WellFormed := by
  constructor
  · intro formed
    refine ⟨fun s start => size_bare graph ▸ formed.start s start, fun state member arc inside => ?_⟩
    exact size_bare graph ▸ formed.targets state.bare (Array.mem_map_of_mem member) arc.bare (Array.mem_map_of_mem inside)
  · intro formed
    refine ⟨fun s start => (size_bare graph).symm ▸ formed.start s start, fun bare listed arc inside => ?_⟩
    obtain ⟨state, member, rfl⟩ := Array.mem_map.mp listed
    obtain ⟨arc, present, rfl⟩ := Array.mem_map.mp inside
    exact (size_bare graph).symm ▸ formed.targets state member arc present

end Graph

namespace Search

variable {graph : Graph W} {search : Search W} {arc : Arc W} {s : StateId}

theorem begin_bare (graph : Graph W) : begin graph.bare = (begin graph).bare := by
  simp only [begin, bare, Graph.size_bare, List.map_nil]
  rfl

theorem enter_bare (search : Search W) (graph : Graph W) (s : StateId) :
    search.bare.enter graph.bare s = (search.enter graph s).bare := by
  simp only [enter, bare, Frame.bare, List.map_cons, Graph.arcsFrom_bare]

theorem follow_bare (search : Search W) (graph : Graph W) (source : StateId) (arc : Arc W) :
    search.bare.follow graph.bare source arc.bare = (search.follow graph source arc).bare := by
  simp only [follow, bare, Arc.bare]
  cases search.colors[arc.target]? with
  | none => rfl
  | some color =>
    cases color with
    | white =>
      refine congrArg (Step.ask (.treeArc source arc.bare)) (funext fun answer => ?_)
      cases answer with
      | true => exact enter_bare search graph arc.target
      | false => rfl
    | grey => rfl
    | black => rfl

/-- Nothing that a step does depends on what the arcs and the states carry. -/
theorem step_bare (graph : Graph W) (search : Search W) : search.bare.step graph.bare = (search.step graph).bare := by
  obtain ⟨colors, roots, current, path, entering, running⟩ := search
  cases path with
  | nil =>
    cases running with
    | false => rfl
    | true =>
      cases roots with
      | nil => rfl
      | cons root roots =>
        simp only [step, bare, List.map_nil]
        cases colors[root]? with
        | none => rfl
        | some color =>
          cases color with
          | white => exact congrArg Step.pass (enter_bare { colors, roots, root, entering, running := true } graph root)
          | grey => rfl
          | black => rfl
  | cons frame outer =>
    obtain ⟨state, pending⟩ := frame
    cases entering with
    | true => rfl
    | false =>
      cases running with
      | false => cases outer <;> rfl
      | true =>
        cases pending with
        | nil => cases outer <;> rfl
        | cons arc pending =>
          exact follow_bare
            { colors, roots, root := current, path := ⟨state, pending⟩ :: outer, entering := false, running := true }
            graph state arc

/-- A visitor that looks at no label and no weight learns the same from both graphs. -/
theorem run_bare {visit : V → Event W → V × Bool} {blind : V → Event Unit → V × Bool}
    (same : ∀ visitor event, visit visitor event = blind visitor event.bare) (visitor : V) (search : Search W) :
    search.bare.run graph.bare blind visitor = search.run graph visit visitor := by
  induction search using step_induction graph generalizing visitor with
  | step search ih =>
    have bare := step_bare graph search
    cases taken : search.step graph <;> rw [taken] at bare
    case pass next => rw [run_pass bare, run_pass taken, ih next (taken ▸ .pass)]
    case ask event next => rw [run_ask bare, run_ask taken, ← same, ih _ (taken ▸ .ask _)]
    case tell event next => rw [run_tell bare, run_tell taken, ← same, ih next (taken ▸ .tell)]
    case fail s => rw [run_fail bare, run_fail taken]
    case stop =>
      rw [run_stop bare, run_stop taken, same]
      rfl

end Search

theorem Departures.visit_bare (departures : Departures) (event : Event W) :
    departures.visit event = departures.visit event.bare := by
  cases event <;> rfl

/-- What a state carries: its final weight and, by position, all of its arcs but where they lead. -/
structure Load (W : Type) where
  final : Option W
  input : Nat → Label
  output : Nat → Label
  weight : Nat → W

/-- The state with another load. -/
def State.laden (state : State W) (load : Load V) : State V where
  final := load.final
  arcs := state.arcs.mapIdx fun i arc => ⟨load.input i, load.output i, load.weight i, arc.target⟩

theorem State.arcs_laden (state : State W) (load : Load V) (i : Nat) : (state.laden load).arcs[i]? =
    (state.arcs[i]?).map fun arc => ⟨load.input i, load.output i, load.weight i, arc.target⟩ :=
  Array.getElem?_mapIdx

theorem State.bare_laden (state : State W) (load : Load V) : (state.laden load).bare = state.bare := by
  have targets : (state.laden load).arcs.map Arc.bare = state.arcs.map Arc.bare := by
    apply Array.ext_getElem?
    intro i
    simp only [Array.getElem?_map, arcs_laden, Option.map_map]
    rfl
  exact congrArg (fun arcs => ({ arcs } : State Unit)) targets

theorem State.laden_relocate (state : State W) (load : Load V) (place : StateId → StateId) :
    (state.laden load).relocate place = (state.relocate place).laden load := by
  rw [State.mk.injEq]
  refine ⟨rfl, Array.ext_getElem? fun i => ?_⟩
  simp only [relocate, Array.getElem?_map, arcs_laden, Option.map_map]
  rfl

/-- What the state carries as it is. -/
def State.load [Weight W] (state : State W) : Load W where
  final := state.final
  input i := (state.arcs[i]?).elim 0 Arc.input
  output i := (state.arcs[i]?).elim 0 Arc.output
  weight i := (state.arcs[i]?).elim Weight.noWeight Arc.weight

theorem State.laden_load [Weight V] {state : State W} {other : State V}
    (targets : other.arcs.map Arc.target = state.arcs.map Arc.target) : state.laden other.load = other := by
  rw [State.mk.injEq]
  refine ⟨rfl, Array.ext_getElem? fun i => ?_⟩
  have target : (other.arcs[i]?).map Arc.target = (state.arcs[i]?).map Arc.target := by
    rw [← Array.getElem?_map, targets, Array.getElem?_map]
  rw [arcs_laden]
  cases here : state.arcs[i]? with
  | none =>
    rw [here] at target
    exact (Option.map_eq_none_iff.mp target).symm
  | some arc =>
    rw [here] at target
    obtain ⟨same, there, led⟩ := Option.map_eq_some_iff.mp target
    simp only [Option.map_some, load, there, Option.elim_some, ← led]

namespace Graph
open Departures

variable {graph result : Graph W} {place : StateId → StateId} {load moved : StateId → Load V}

theorem topOrder?_bare (graph : Graph W) : graph.bare.topOrder? = graph.topOrder? := by
  have searched : graph.bare.search Departures.visit {} = graph.search Departures.visit {} := by
    rw [search, search, Search.begin_bare]
    exact Search.run_bare Departures.visit_bare {} (Search.begin graph)
  rw [topOrder?, topOrder?, searched]

/-- The graph in which every state has the load that is given for its number. -/
def laden (graph : Graph W) (load : StateId → Load V) : Graph V where
  start := graph.start
  states := graph.states.mapIdx fun s state => state.laden (load s)

theorem size_laden (graph : Graph W) (load : StateId → Load V) : (graph.laden load).size = graph.size :=
  Array.size_mapIdx

theorem states_laden (graph : Graph W) (load : StateId → Load V) (s : StateId) :
    (graph.laden load).states[s]? = (graph.states[s]?).map (State.laden · (load s)) := by
  simp [laden]

/-- A load does not change where a graph leads. -/
theorem bare_laden (graph : Graph W) (load : StateId → Load V) : (graph.laden load).bare = graph.bare := by
  rw [Graph.mk.injEq]
  refine ⟨rfl, Array.ext_getElem? fun s => ?_⟩
  simp only [bare, Array.getElem?_map, states_laden, Option.map_map]
  exact congrArg (Option.map · graph.states[s]?) (funext fun state => state.bare_laden (load s))

theorem isSorted_laden (graph : Graph W) (load : StateId → Load V) : (graph.laden load).isSorted = graph.isSorted := by
  rw [← isSorted_bare, bare_laden, isSorted_bare]

theorem topOrder?_laden (graph : Graph W) (load : StateId → Load V) :
    (graph.laden load).topOrder? = graph.topOrder? := by
  rw [← topOrder?_bare, bare_laden, topOrder?_bare]

theorem WellFormed.laden (formed : graph.WellFormed) (load : StateId → Load V) : (graph.laden load).WellFormed := by
  rw [← wellFormed_bare, bare_laden, wellFormed_bare]
  exact formed

theorem Renumbered.laden (renumbered : graph.Renumbered place result)
    (carried : ∀ s < graph.size, moved (place s) = load s) :
    (graph.laden load).Renumbered place (result.laden moved) where
  sized := by rw [size_laden, size_laden, renumbered.sized]
  bijective := (size_laden graph load).symm ▸ renumbered.bijective
  start := renumbered.start
  states s state found := by
    rw [states_laden] at found
    obtain ⟨before, listed, rfl⟩ := Option.map_eq_some_iff.mp found
    have inside := (Array.getElem?_eq_some_iff.mp listed).1
    rw [states_laden, renumbered.states s before listed, Option.map_some, carried s inside, State.laden_relocate]

/-- Every state can take its load along to its new place. -/
theorem Renumbered.exists_carried (renumbered : graph.Renumbered place result) (load : StateId → Load V) :
    ∃ moved : StateId → Load V, ∀ s < graph.size, moved (place s) = load s :=
  ⟨load ∘ Function.invFunOn place (Set.Iio graph.size), fun _ inside =>
    congrArg load (renumbered.bijective.invOn_invFunOn.1 inside)⟩

/-- What sorting does with a graph and with the same graph under another load. -/
theorem sorted?_laden (formed : graph.WellFormed) (load : StateId → Load V) :
    (graph.sorted? = .ok none ∧ (graph.laden load).sorted? = .ok none) ∨
    ∃ result place moved, graph.sorted? = .ok (some result) ∧ graph.Renumbered place result ∧
      (∀ s < graph.size, moved (place s) = load s) ∧
      (graph.laden load).sorted? = .ok (some (result.laden moved)) := by
  by_cases ascending : graph.Ascending
  · have again : (graph.laden load).Ascending := isSorted_iff.mp (isSorted_laden graph load ▸ isSorted_iff.mpr ascending)
    exact .inr ⟨graph, id, load, sorted?_of_ascending ascending, .refl graph, fun _ _ => rfl, sorted?_of_ascending again⟩
  have unsorted : ¬ (graph.laden load).Ascending := fun again =>
    ascending (isSorted_iff.mp (isSorted_laden graph load ▸ isSorted_iff.mpr again))
  -- both graphs are renumbered by the order of the bare graph, and a graph is renumbered in one way only
  have ordered := topOrder?_laden graph load
  rcases topOrder?_cases graph with ⟨left, found, topological⟩ | ⟨found, -⟩ | ⟨s, -, lost⟩
  · obtain ⟨result, done, renumbered⟩ := renumber_permutation formed topological.permutation
    obtain ⟨moved, carried⟩ := renumbered.exists_carried load
    have redone : (graph.laden load).renumber (ranks left) = .ok (result.laden moved) :=
      renumber_of_renumbered (formed.laden load) ((size_laden graph load).symm ▸ topological.permutation)
        (renumbered.laden carried)
    exact .inr ⟨result, _, moved, sorted?_of_order ascending found done, renumbered, carried,
      sorted?_of_order unsorted (ordered.trans found) redone⟩
  · exact .inl ⟨sorted?_of_none ascending found, sorted?_of_none unsorted (ordered.trans found)⟩
  · exact (formed.not_lost lost).elim

/-- Every graph with the same start and the same targets is the graph under another load. -/
theorem exists_load [Weight V] {other : Graph V} (start : other.start = graph.start) (sized : other.size = graph.size)
    (targets : ∀ s, (other.arcsFrom s).map Arc.target = (graph.arcsFrom s).map Arc.target) :
    ∃ load : StateId → Load V, graph.laden load = other := by
  refine ⟨fun s => ((other.states[s]?).getD {}).load, ?_⟩
  rw [Graph.mk.injEq]
  refine ⟨start.symm, Array.ext_getElem? fun s => ?_⟩
  rw [states_laden]
  by_cases inside : s < graph.size
  · obtain ⟨state, found⟩ := exists_state inside
    obtain ⟨carrying, given⟩ := exists_state (sized ▸ inside : s < other.size)
    have same := targets s
    rw [arcsFrom_of_getElem? found, arcsFrom_of_getElem? given, ← Array.toList_map, ← Array.toList_map] at same
    rw [found, given, Option.map_some, Option.getD_some, State.laden_load (Array.toList_inj.mp same)]
  · have outside : ¬ s < other.size := sized ▸ inside
    rw [Array.getElem?_eq_none (Nat.le_of_not_lt inside), Array.getElem?_eq_none (Nat.le_of_not_lt outside)]
    rfl

/-- Sorting ignores what arcs and states carry. Under any other load, which may make states final or not and may be of
another type, a graph has the same order, is as much sorted as before, and is sorted to the same graph under the load
that its states have taken along to their new places. The loads give every graph with the same start and targets. -/
theorem sorting_blind [Weight V] (formed : graph.WellFormed) :
    (∀ load : StateId → Load V,
      (graph.laden load).topOrder? = graph.topOrder? ∧ (graph.laden load).isSorted = graph.isSorted ∧
      ((graph.sorted? = .ok none ∧ (graph.laden load).sorted? = .ok none) ∨
        ∃ result place moved, graph.sorted? = .ok (some result) ∧ graph.Renumbered place result ∧
          (∀ s < graph.size, moved (place s) = load s) ∧
          (graph.laden load).sorted? = .ok (some (result.laden moved)))) ∧
    ∀ other : Graph V, other.start = graph.start → other.size = graph.size →
      (∀ s, (other.arcsFrom s).map Arc.target = (graph.arcsFrom s).map Arc.target) →
      ∃ load, graph.laden load = other := by
  refine ⟨fun load => ?_, fun other => exists_load⟩
  exact ⟨topOrder?_laden graph load, isSorted_laden graph load, sorted?_laden formed load⟩

/-- The two chains with weights, other labels and another final state. -/
def tolls : Graph Boolean where
  start := some 2
  states := #[{}, { final := some .one, arcs := #[⟨7, 8, .one, 0⟩] },
    { arcs := #[⟨5, 0, .zero, 1⟩, ⟨0, 5, .one, 1⟩] }, { arcs := #[⟨9, 9, .one, 0⟩] }]

theorem tolls_sorted : tolls.topOrder? = chains.topOrder? ∧ ∃ result place load moved,
    chains.laden load = tolls ∧ chains.sorted? = .ok (some result) ∧ chains.Renumbered place result ∧
    (∀ s < 4, moved (place s) = load s) ∧ tolls.sorted? = .ok (some (result.laden moved)) := by
  have targets (s : StateId) : (tolls.arcsFrom s).map Arc.target = (chains.arcsFrom s).map Arc.target := by
    match s with
    | 0 | 1 | 2 | 3 | _ + 4 => rfl
  obtain ⟨blind, reached⟩ := sorting_blind (V := Boolean) chains_wellFormed
  obtain ⟨load, same⟩ := reached tolls rfl rfl targets
  obtain ⟨order, -, ⟨unsorted, -⟩ | ⟨result, place, moved, found, renumbered, carried, refound⟩⟩ := blind load
  · rcases sorted?_cases chains_wellFormed with ⟨cyclic, -⟩ | ⟨-, result, place, found, -⟩
    · exact absurd cyclic chains_not_cyclic
    · cases unsorted.symm.trans found
  · rw [same] at order refound
    exact ⟨order, result, place, load, moved, same, found, renumbered, carried, refound⟩

end Graph

end Transducer
