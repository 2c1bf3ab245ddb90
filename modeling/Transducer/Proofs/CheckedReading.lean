import Transducer.Proofs.ContainerReading
import Transducer.Proofs.Refusals

/-! Reading by changes of a graph that may refuse them. All states are added before anything is known of them, and the
start, the final weights and the arcs are put in as they are read. What they name is looked at before, so the graph
refuses none of them and what is read is the same. -/

namespace Transducer

variable {W : Type}

namespace Graph

/-- A graph of which some states have been read and so many are still blank. -/
def begun (start : Option StateId) (read : Array (State W)) (blank : Nat) : Graph W :=
  { start, states := read ++ Array.replicate blank {} }

variable {start : Option StateId} {read : Array (State W)} {state : State W} {blank : Nat}

theorem addStates_eq (graph : Graph W) (count : Nat) :
    graph.addStates count = begun graph.start graph.states count := by
  induction count generalizing graph with
  | zero => simp [addStates, begun]
  | succ count ih =>
    rw [addStates, ih]
    simp [begun, addState, Array.replicate_succ']

theorem begun_succ : begun start read (blank + 1) = begun start (read.push {}) blank := by
  rw [begun, begun, Graph.mk.injEq]
  refine ⟨rfl, Array.toList_inj.mp ?_⟩
  simp [List.replicate_succ]

theorem size_begun : (begun start read blank).size = read.size + blank := by
  simp [begun, size]

theorem modify_push (read rest : Array (State W)) (state : State W) (change : State W → State W) :
    (read.push state ++ rest).modify read.size change = read.push (change state) ++ rest := by
  apply Array.ext_getElem?
  intro s
  rw [Array.getElem?_modify, Array.getElem?_append, Array.getElem?_append, Array.getElem?_push, Array.getElem?_push]
  by_cases here : read.size = s
  · simp [here]
  · simp [here, Ne.symm here]

theorem begun_update (change : State W → State W) :
    (begun start (read.push state) blank).update read.size change =
      .ok (begun start (read.push (change state)) blank) := by
  have inside : read.size < (begun start (read.push state) blank).size := by
    rw [size_begun, Array.size_push]
    omega
  rw [update_of_live inside, modify, begun, modify_push]
  rfl

theorem begun_addArc {arc : Arc W} (inside : arc.target < read.size + 1 + blank) :
    (begun start (read.push state) blank).addArc read.size arc =
      .ok (begun start (read.push (state.addArc arc)) blank) := by
  have live : arc.target < (begun start (read.push state) blank).size := by
    rwa [size_begun, Array.size_push]
  exact except_bind_ok.mpr ⟨(), check_of_live live, begun_update _⟩

end Graph

namespace Reader
open Transducer.Graph

/-- Changes the graph, which may refuse the change. -/
def change (changed : Except GraphError (Graph W)) : Reader (Graph W) :=
  StateT.lift (changed.mapError .graph)

def startChecked (graph : Graph W) (header : Header) : Reader (Graph W) := do
  match ← start header with
  | none => return graph
  | some s => change (graph.setStart s)

theorem startChecked_eq {header : Header} :
    startChecked (empty.addStates header.states : Graph W) header = do
      let start ← Reader.start header
      return begun start #[] header.states := by
  refine Parser.bind_congr fun _ found _ taken => ?_
  rw [addStates_eq]
  cases found with
  | none => rfl
  | some s =>
    obtain ⟨⟨found, inside⟩, _⟩ := start_ok.mp taken
    have live : s < (begun none #[] header.states : Graph W).size := by
      rw [size_begun]
      simpa using inside s found.symm
    have changed : (begun none #[] header.states : Graph W).setStart s = .ok (begun (some s) #[] header.states) :=
      except_bind_ok.mpr ⟨(), check_of_live live, rfl⟩
    exact congrArg change changed

variable [Weight W]

def finalChecked (graph : Graph W) (source : StateId) : Reader (Graph W) := do
  match ← final source with
  | none => return graph
  | some weight => change (graph.setFinal source weight)

def arcsChecked (size source : Nat) (graph : Graph W) : Nat → Reader (Graph W)
  | 0 => return graph
  | count + 1 => do
    let arc ← arc size source
    arcsChecked size source (← change (graph.addArc source arc)) count

/-- The graph with one more state read, and the count of its arcs. -/
def stateChecked (size source : Nat) (graph : Graph W) : Reader (Graph W × Nat) := do
  let graph ← finalChecked graph source
  let count ← word 4
  return (← arcsChecked size source graph count, count)

/-- So many states from this one on, where `total` arcs have been counted before. -/
def statesChecked (size source total : Nat) (graph : Graph W) : Nat → Reader (Graph W × Nat)
  | 0 => return (graph, total)
  | count + 1 => do
    let (graph, added) ← stateChecked size source graph
    statesChecked size (source + 1) (total + added) graph count

def graphChecked : Reader (Graph W) := do
  let header ← Header.read
  weightType (Weight.typeName W)
  let size ← stateCount header
  let graph ← startChecked (empty.addStates size) header
  let (graph, total) ← statesChecked size 0 0 graph size
  if total ≠ header.arcs then throw (.corrupt (.arcCount header.arcs total))
  match (← get).length with
  | 0 => return graph
  | count => throw (.corrupt (.trailing count))

variable {size count blank : Nat} {start : Option StateId} {read : Array (State W)} {current : State W}

theorem arc_target_lt {source : Nat} {input rest : Bytes} {arc : Arc W}
    (taken : Reader.arc size source input = .ok (arc, rest)) : arc.target < size := by
  simp only [Reader.arc, Parser.bind_ok, Parser.check_ok, Parser.pure_ok] at taken
  obtain ⟨_, _, _, _, _, _, _, _, _, _, _, _, _, _, _, inside, rfl, _⟩ := taken
  exact Nat.not_le.mp inside

theorem arcs_size {source : Nat} {sofar all : Array (Arc W)} {input rest : Bytes}
    (taken : arcs size source sofar count input = .ok (all, rest)) : all.size = sofar.size + count := by
  induction count generalizing sofar input with
  | zero =>
    obtain ⟨rfl, _⟩ := Parser.pure_ok.mp taken
    rfl
  | succ count ih =>
    obtain ⟨arc, middle, _, others⟩ := Parser.bind_ok.mp taken
    rw [ih others, Array.size_push]
    omega

theorem arcsChecked_eq (sized : size = read.size + 1 + blank) :
    arcsChecked size read.size (begun start (read.push current) blank) count = do
      let arcs ← arcs size read.size current.arcs count
      return begun start (read.push { current with arcs }) blank := by
  induction count generalizing current with
  | zero => rfl
  | succ count ih =>
    rw [arcsChecked, arcs, bind_assoc]
    apply Parser.bind_congr
    intro input arc rest taken
    have added : (begun start (read.push current) blank).addArc read.size arc =
        .ok (begun start (read.push (current.addArc arc)) blank) := begun_addArc (sized ▸ arc_target_lt taken)
    rw [added]
    exact ih

theorem finalChecked_eq : finalChecked (begun start (read.push {}) blank) read.size = do
    let final ← final read.size
    return begun start (read.push { final }) blank := by
  refine Parser.bind_congr fun _ found _ _ => ?_
  cases found with
  | none => rfl
  | some weight =>
    have changed : (begun start (read.push {}) blank).setFinal read.size weight =
      .ok (begun start (read.push { final := some weight }) blank) := begun_update _
    simp only [changed]
    rfl

theorem stateChecked_eq (sized : size = read.size + 1 + blank) :
    stateChecked size read.size (begun start (read.push {}) blank) = do
      let state ← state size read.size
      return (begun start (read.push state) blank, state.arcs.size) := by
  rw [stateChecked, finalChecked_eq, state]
  simp only [bind_assoc, pure_bind]
  refine Parser.bind_congr fun _ final _ _ => Parser.bind_congr fun _ count _ _ => ?_
  rw [arcsChecked_eq sized]
  simp only [bind_assoc, pure_bind]
  refine Parser.bind_congr fun _ arcs _ taken => ?_
  rw [arcs_size taken]
  simp

theorem statesChecked_eq {source total : Nat} (here : source = read.size) (sized : size = source + count)
    (counted : total = totalArcs { start, states := read }) :
    statesChecked size source total (begun start read count) count = do
      let states ← states size read count
      return ({ start, states }, totalArcs { start, states }) := by
  induction count generalizing read source total with
  | zero => simp [statesChecked, states, begun, counted]
  | succ count ih =>
    subst here
    rw [statesChecked, begun_succ, stateChecked_eq (by omega), states]
    simp only [bind_assoc, pure_bind]
    refine Parser.bind_congr fun _ state _ _ => ?_
    have total : totalArcs { start, states := read } + state.arcs.size =
        totalArcs { start, states := read.push state } := by
      simp [totalArcs]
    exact ih (by rw [Array.size_push]) (by omega) (counted ▸ total)

/-- No change of the graph is refused while it is read. -/
theorem graphChecked_eq : (graphChecked : Reader (Graph W)) = graph := by
  rw [graphChecked, graph]
  refine Parser.bind_congr fun _ header _ _ => Parser.bind_congr fun _ _ _ _ => ?_
  refine Parser.bind_congr fun _ size _ counted => ?_
  obtain rfl := (stateCount_ok.mp counted).1.1
  rw [startChecked_eq]
  simp only [bind_assoc, pure_bind]
  refine Parser.bind_congr fun _ start _ _ => ?_
  have all : statesChecked header.states 0 0 (begun start #[] header.states : Graph W) header.states = do
      let states ← states header.states #[] header.states
      return ({ start, states }, totalArcs { start, states }) :=
    statesChecked_eq rfl (Nat.zero_add _).symm (by simp [totalArcs])
  rw [all, bind_assoc]
  rfl

end Reader

variable [Weight W]

def Graph.decodeChecked (input : Bytes) : Except ReadError (Graph W) := Reader.graphChecked.run' input

theorem Graph.decodeChecked_eq (input : Bytes) :
    (Graph.decodeChecked input : Except ReadError (Graph W)) = Graph.decode input := by
  rw [decodeChecked, Reader.graphChecked_eq, decode]

end Transducer
