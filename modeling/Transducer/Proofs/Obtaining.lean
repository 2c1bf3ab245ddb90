import Transducer.Proofs.Calls
import Transducer.Proofs.Compaction
import Transducer.Proofs.ContainerReading
import Transducer.Proofs.Drafting
import Transducer.Proofs.Sorting

/-! Where graphs come from. A graph begins empty, as stored bytes or as a listing, and calls change it. All that is
obtained in this way is well formed, so the calls that renumber states find a new number wherever they look for
one. -/

namespace Transducer

variable {W : Type} {graph next : Graph W}

namespace Graph

/-- All numbers in the graph are positions in the array. -/
def Covered {α : Type} (graph : Graph W) (numbers : Array α) : Prop :=
  (∀ s ∈ graph.start, s < numbers.size) ∧ ∀ state ∈ graph.states, ∀ arc ∈ state.arcs, arc.target < numbers.size

namespace WellFormed

theorem covered {α : Type} {numbers : Array α} (formed : graph.WellFormed) (sized : numbers.size = graph.size) :
    graph.Covered numbers :=
  ⟨fun s start => sized ▸ formed.start s start, fun state member => sized ▸ formed.targets state member⟩

theorem empty : (Graph.empty : Graph W).WellFormed := ⟨nofun, nofun⟩

theorem addState (formed : graph.WellFormed) : graph.addState.WellFormed := by
  have size : graph.addState.size = graph.size + 1 := Array.size_push ..
  constructor
  case start => exact fun s start => size ▸ Nat.lt_succ_of_lt (formed.start s start)
  case targets =>
    intro state member arc inside
    rcases Array.mem_push.mp member with old | rfl
    · exact size ▸ Nat.lt_succ_of_lt (formed.targets state old arc inside)
    · cases Array.not_mem_empty arc inside

theorem modify {s : StateId} {change : State W → State W} (formed : graph.WellFormed)
    (kept : ∀ state, ∀ arc ∈ (change state).arcs, arc ∈ state.arcs ∨ arc.target < graph.size) :
    (graph.modify s change).WellFormed := by
  have size : (graph.modify s change).size = graph.size := Array.size_modify
  constructor
  case start => exact fun s start => size ▸ formed.start s start
  case targets =>
    intro state member arc inside
    rw [size]
    obtain ⟨t, found⟩ := Array.getElem?_of_mem member
    rw [Graph.modify, Array.getElem?_modify] at found
    split at found
    next =>
      obtain ⟨before, old, rfl⟩ := Option.map_eq_some_iff.mp found
      rcases kept before arc inside with known | fits
      · exact formed.targets before (Array.mem_of_getElem? old) arc known
      · exact fits
    next => exact formed.targets state (Array.mem_of_getElem? found) arc inside

theorem update {s : StateId} {change : State W → State W} (formed : graph.WellFormed)
    (kept : ∀ state, ∀ arc ∈ (change state).arcs, arc ∈ state.arcs ∨ arc.target < graph.size)
    (done : graph.update s change = .ok next) : next.WellFormed := by
  unfold Graph.update at done
  split at done
  next =>
    cases done
    exact formed.modify kept
  next => cases done

theorem check_ok {s : StateId} {done : Unit} : graph.check s = .ok done ↔ s < graph.size := by
  unfold check
  split <;> simp_all

theorem addArc {source : StateId} {arc : Arc W} (formed : graph.WellFormed)
    (done : graph.addArc source arc = .ok next) : next.WellFormed := by
  obtain ⟨_, inside, done⟩ := except_bind_ok.mp done
  refine formed.update (fun state other member => ?_) done
  rcases Array.mem_push.mp member with old | rfl
  · exact .inl old
  · exact .inr (check_ok.mp inside)

theorem setStart {s : StateId} (formed : graph.WellFormed) (done : graph.setStart s = .ok next) :
    next.WellFormed := by
  obtain ⟨_, inside, ⟨⟩⟩ := except_bind_ok.mp done
  refine ⟨fun t start => ?_, formed.targets⟩
  cases start
  exact check_ok.mp inside

theorem compact {kept : List Bool} (formed : graph.WellFormed) (sized : kept.length = graph.size) :
    (graph.compact (compactFrom 0 kept).toArray).WellFormed := by
  have moved {s number : StateId} (known : s < graph.size) (found : newNumber? kept s = some number) :
      number < (graph.compact (compactFrom 0 kept).toArray).size := by
    obtain ⟨state, old⟩ := exists_state known
    have matched : graph.states.toList.length = kept.length := by simp [sized, size]
    have same : (pick kept graph.states.toList)[number]? = some state :=
      (pick_getElem?_newNumber? matched found).trans (Array.getElem?_toList.trans old)
    rw [size_compact sized, ← length_pick matched]
    exact (List.getElem?_eq_some_iff.mp same).1
  constructor
  case start =>
    intro number start
    rw [start_compact] at start
    obtain ⟨s, old, found⟩ := Option.bind_eq_some_iff.mp start
    exact moved (formed.start s old) found
  case targets =>
    intro state member arc inside
    have listed : state ∈ (pick kept graph.states.toList).map (State.redirect · (newNumber? kept)) := by
      rw [← states_compact]
      exact Array.mem_toList_iff.mpr member
    obtain ⟨before, stays, rfl⟩ := List.mem_map.mp listed
    obtain ⟨old, present, redirected⟩ := Array.mem_filterMap.mp inside
    obtain ⟨number, found, rfl⟩ := Option.map_eq_some_iff.mp redirected
    have known := formed.targets before (Array.mem_toList_iff.mp (pick_subset kept _ stays)) old present
    exact moved known found

theorem deleteStates {doomed : List StateId} (formed : graph.WellFormed)
    (done : graph.deleteStates doomed = .ok next) : next.WellFormed := by
  by_cases live : ∀ s ∈ doomed, s < graph.size
  · rw [deleteStates_of_live live] at done
    cases done
    exact formed.compact (by simp [staying])
  · obtain ⟨error, failed⟩ := deleteStates_of_not_live live
    cases failed.symm.trans done

theorem deleteArcs {s : StateId} {positions : List Nat} (formed : graph.WellFormed)
    (done : graph.deleteArcs s positions = .ok next) : next.WellFormed := by
  cases found : graph.states[s]? with
  | none => cases (deleteArcs_of_absent found).symm.trans done
  | some state =>
    by_cases live : ∀ position ∈ positions, position < state.arcs.size
    · rw [deleteArcs_of_live found live] at done
      cases done
      refine formed.modify fun state arc member => .inl ?_
      simpa using pick_subset _ _ (List.mem_toArray.mp member)
    · obtain ⟨error, failed⟩ := deleteArcs_of_not_live found live
      cases failed.symm.trans done

theorem renumber {order : Array StateId} (formed : graph.WellFormed) (done : graph.renumber order = .ok next) :
    next.WellFormed := by
  by_cases permutation : Permutation graph.size order
  · obtain ⟨result, moved, renumbered⟩ := renumber_permutation formed permutation
    cases moved.symm.trans done
    exact renumbered.wellFormed formed
  · cases (renumber_error permutation).symm.trans done

/-- No call takes a well-formed graph to one that is not. -/
theorem call {call : Call W} (formed : graph.WellFormed) (done : graph.call call = .ok next) : next.WellFormed := by
  cases call with
  | addState =>
    cases done
    exact formed.addState
  | addArc source arc => exact formed.addArc done
  | setStart s => exact formed.setStart done
  | setFinal s weight =>
    refine formed.update ?_ done
    exact fun _ _ => .inl
  | deleteFinal s =>
    refine formed.update ?_ done
    exact fun _ _ => .inl
  | deleteStates doomed => exact formed.deleteStates done
  | deleteAllStates =>
    cases done
    exact .empty
  | deleteArcs s positions =>
    cases positions with
    | none => exact formed.update (fun _ _ member => (Array.not_mem_empty _ member).elim) done
    | some positions => exact formed.deleteArcs done
  | renumber order => exact formed.renumber done
  | sort =>
    obtain ⟨sorted, found, ⟨⟩⟩ := except_bind_ok.mp done
    rcases sorted?_cases formed with ⟨_, none⟩ | ⟨_, result, place, moved, renumbered, _⟩
    · cases none.symm.trans found
      exact formed
    · cases moved.symm.trans found
      exact renumbered.wellFormed formed

end WellFormed

end Graph

namespace Reader

variable [Weight W] {input rest : Bytes}

section Repeat

variable {α : Type} {collect : Array α → Nat → Reader (Array α)} {item : Array α → Reader α} {Good : α → Prop}

/-- What holds of every item that is read holds of all of them together. -/
theorem repeat_good (done : ∀ read, collect read 0 = pure read)
    (more : ∀ read count, collect read (count + 1) = do collect (read.push (← item read)) count)
    (good : ∀ read input value rest, item read input = .ok (value, rest) → Good value) {count : Nat}
    {read all : Array α} (taken : collect read count input = .ok (all, rest)) (before : ∀ item ∈ read, Good item) :
    all.size = read.size + count ∧ ∀ item ∈ all, Good item := by
  induction count generalizing read input with
  | zero =>
    rw [done] at taken
    obtain ⟨rfl, _⟩ := Parser.pure_ok.mp taken
    exact ⟨rfl, before⟩
  | succ count ih =>
    rw [more] at taken
    obtain ⟨value, middle, first, taken⟩ := Parser.bind_ok.mp taken
    have goods : ∀ item ∈ read.push value, Good item := by
      intro item member
      rcases Array.mem_push.mp member with old | rfl
      · exact before item old
      · exact good _ _ _ _ first
    obtain ⟨size, all⟩ := ih taken goods
    exact ⟨by rw [size, Array.size_push, Nat.add_right_comm, Nat.add_assoc], all⟩

end Repeat

theorem arc_target {size source : Nat} {arc : Arc W} (taken : Reader.arc size source input = .ok (arc, rest)) :
    arc.target < size := by
  simp only [Reader.arc, Parser.bind_ok, Parser.check_ok, Parser.pure_ok] at taken
  obtain ⟨_, _, _, _, _, _, target, _, _, _, _, _, _, _, _, inside, rfl, _⟩ := taken
  exact Nat.not_le.mp inside

theorem state_targets {size source : Nat} {state : State W}
    (taken : Reader.state size source input = .ok (state, rest)) : ∀ arc ∈ state.arcs, arc.target < size := by
  simp only [Reader.state, Parser.bind_ok, Parser.pure_ok] at taken
  obtain ⟨_, _, _, _, _, _, arcs, _, taken, rfl, _⟩ := taken
  exact (repeat_good (fun _ => rfl) (fun _ _ => rfl) (fun _ _ _ _ => arc_target) taken (by simp)).2

/-- Whatever weights are read, the reader checks every number before it gives a graph. -/
theorem graph_wellFormed (taken : Reader.graph input = .ok (graph, rest)) : graph.WellFormed := by
  simp only [Reader.graph, Parser.bind_ok, Parser.check_ok, Parser.get_ok, stateCount_ok, start_ok] at taken
  obtain ⟨header, _, _, _, _, _, _, _, ⟨⟨rfl, _⟩, _⟩, _, _, ⟨⟨rfl, inside⟩, _⟩, states, last, taken, _, _, _,
    ⟨rfl, rfl⟩, ending⟩ := taken
  obtain ⟨sized, targets⟩ :=
    repeat_good (fun _ => rfl) (fun _ _ => rfl) (fun _ _ _ _ => state_targets) taken (by simp)
  have size : Graph.size { start := header.startState?, states : Graph W } = header.states := by
    simpa [Graph.size] using sized
  cases last with
  | cons byte last => cases ending
  | nil =>
    obtain ⟨rfl, _⟩ := Parser.pure_ok.mp ending
    exact ⟨fun s start => size ▸ inside s start, fun state member => size ▸ targets state member⟩

end Reader

/-- The graphs that a program can come by. A copy of a graph is the same graph, and room for states to come is no
part of it. -/
inductive Obtained [Weight W] : Graph W → Prop where
  | empty : Obtained .empty
  | decoded {input : Bytes} {graph : Graph W} (read : Graph.decode input = .ok graph) : Obtained graph
  | listed {tables : LabelTables} {text : List Char} {graph : Graph W}
      (read : Graph.ofListing tables text = .ok graph) : Obtained graph
  /-- A call that fails leaves the graph as it was. -/
  | after {graph : Graph W} (obtained : Obtained graph) (call : Call W) : Obtained (graph.after call)

theorem Obtained.afterAll [Weight W] (obtained : Obtained graph) (calls : List (Call W)) :
    Obtained (calls.foldl Graph.after graph) := by
  induction calls generalizing graph with
  | nil => exact obtained
  | cons call calls ih => exact ih (obtained.after call)

theorem Obtained.wellFormed [Weight W] (obtained : Obtained graph) : graph.WellFormed := by
  induction obtained with
  | empty => exact .empty
  | decoded read =>
    obtain ⟨rest, taken⟩ := Parser.run'_ok.mp read
    exact Reader.graph_wellFormed taken
  | listed read =>
    obtain ⟨lines, _, rfl⟩ := Graph.ofListing_ok.mp read
    exact ofLines_wellFormed lines
  | @after graph obtained call ih =>
    cases outcome : graph.call call with
    | error error => rwa [Graph.after_of_error outcome]
    | ok next => exact Graph.after_of_ok outcome ▸ ih.call outcome

namespace Graph

/-- The new number of each state when some are deleted. -/
def survivors (graph : Graph W) (doomed : List StateId) : Array (Option StateId) :=
  (compactFrom 0 (strike doomed (Array.replicate graph.size true)).toList).toArray

/-- Every graph that can be obtained is well formed. When states of it are deleted or moved, each number in it is
looked up in an array that has an entry for it. -/
theorem obtained_covered [Weight W] (obtained : Obtained graph) :
    graph.WellFormed ∧
    (∀ doomed next, graph.deleteStates doomed = .ok next →
      next = graph.compact (graph.survivors doomed) ∧ graph.Covered (graph.survivors doomed)) ∧
    ∀ order next, graph.renumber order = .ok next → graph.Covered order := by
  have formed := obtained.wellFormed
  refine ⟨formed, fun doomed next done => ?_, fun order next done => ?_⟩
  · have sized : (graph.survivors doomed).size = graph.size := by
      simp [survivors, length_compactFrom, size_strike]
    refine ⟨?_, formed.covered sized⟩
    obtain ⟨_, _, ⟨⟩⟩ := except_bind_ok.mp done
    rfl
  · by_cases permutation : Permutation graph.size order
    · exact formed.covered permutation.sized
    · cases (renumber_error permutation).symm.trans done

/-- Two states with an arc from the first, where the search begins, to the second. -/
def bridge : Graph Boolean := afterAll [.addState, .addState, .addArc 0 ⟨1, 2, .one, 1⟩, .setStart 0]

theorem bridge_covered :
    bridge.WellFormed ∧ bridge.Covered (bridge.survivors [1]) ∧ bridge.Covered #[1, 0] := by
  obtain ⟨formed, deleted, moved⟩ := obtained_covered (Obtained.empty.afterAll _ : Obtained bridge)
  exact ⟨formed, (deleted [1] _ rfl).2, moved #[1, 0] _ rfl⟩

end Graph

end Transducer
