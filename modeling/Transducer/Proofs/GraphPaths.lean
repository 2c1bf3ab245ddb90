import Mathlib.Logic.Relation
import Transducer.Graph.Basic

/-! Where the arcs of a graph lead. A graph is cyclic if some state leads back to itself, and numbers
that grow along every arc rule that out. -/

namespace Transducer.Graph
open Relation

variable {W : Type} {graph : Graph W} {source target : StateId}

def Edge (graph : Graph W) (source target : StateId) : Prop :=
  ∃ arc ∈ graph.arcsFrom source, arc.target = target

/-- Some state leads back to itself. A loop at a single state counts. -/
def Cyclic (graph : Graph W) : Prop := ∃ s, TransGen graph.Edge s s

def Ascending (graph : Graph W) : Prop := ∀ source target, graph.Edge source target → source < target

theorem arcsFrom_of_getElem? {state : State W} (found : graph.states[source]? = some state) :
    graph.arcsFrom source = state.arcs.toList := by
  simp only [arcsFrom, found]

theorem arcsFrom_of_size_le (graph : Graph W) (outside : graph.size ≤ source) : graph.arcsFrom source = [] := by
  simp only [arcsFrom, Array.getElem?_eq_none outside]

theorem edge_iff : graph.Edge source target ↔
    ∃ state, graph.states[source]? = some state ∧ ∃ arc ∈ state.arcs, arc.target = target := by
  constructor
  · intro given
    obtain ⟨arc, member, same⟩ := given
    cases found : graph.states[source]? with
    | none => simp [arcsFrom, found] at member
    | some state =>
      rw [arcsFrom_of_getElem? found] at member
      exact ⟨state, rfl, arc, by simpa using member, same⟩
  · intro given
    obtain ⟨state, found, arc, member, same⟩ := given
    exact ⟨arc, by simpa [arcsFrom_of_getElem? found] using member, same⟩

theorem Edge.source_lt (edge : graph.Edge source target) : source < graph.size := by
  obtain ⟨state, found, _⟩ := edge_iff.mp edge
  exact (Array.getElem?_eq_some_iff.mp found).1

theorem exists_state (inside : source < graph.size) : ∃ state, graph.states[source]? = some state :=
  ⟨_, Array.getElem?_eq_getElem inside⟩

theorem totalArcs_eq (graph : Graph W) :
    graph.totalArcs = ((List.range graph.size).map fun s => (graph.arcsFrom s).length).sum := by
  have each : graph.states.toList.map (fun state => state.arcs.size) =
      (List.range graph.size).map fun s => (graph.arcsFrom s).length := by
    refine List.ext_getElem (by simp [size]) fun s first second => ?_
    have known : s < graph.size := by simpa using second
    obtain ⟨state, found⟩ := exists_state known
    obtain ⟨_, same⟩ := Array.getElem?_eq_some_iff.mp found
    simp [arcsFrom_of_getElem? found, same]
  rw [totalArcs, ← each, ← Array.toList_map, Array.sum_toList]

theorem WellFormed.edge_target_lt (formed : graph.WellFormed) (edge : graph.Edge source target) :
    target < graph.size := by
  obtain ⟨state, found, arc, member, rfl⟩ := edge_iff.mp edge
  exact formed.targets state (Array.mem_of_getElem? found) arc member

theorem isSorted_iff : graph.isSorted = true ↔ graph.Ascending := by
  simp only [isSorted, Array.all_eq_true', Ascending, edge_iff, decide_eq_true_eq]
  constructor
  · intro sorted source target ⟨state, found, arc, member, same⟩
    have located : (state, source) ∈ graph.states.zipIdx := by
      simpa [Array.mem_zipIdx_iff_getElem?] using found
    exact same ▸ sorted (state, source) located arc member
  · intro ascending (state, source) located arc member
    have found : graph.states[source]? = some state := by
      simpa [Array.mem_zipIdx_iff_getElem?] using located
    exact ascending source arc.target ⟨state, found, arc, member, rfl⟩

/-- Numbers that grow along every arc grow along every path, so no path returns to where it began. -/
theorem not_cyclic_of_growing (number : StateId → Nat)
    (grows : ∀ source target, graph.Edge source target → number source < number target) :
    ¬ graph.Cyclic := by
  have farther {source target : StateId} (path : TransGen graph.Edge source target) :
      number source < number target := by
    induction path with
    | single edge => exact grows _ _ edge
    | tail _ edge less => exact Nat.lt_trans less (grows _ _ edge)
  intro given
  obtain ⟨s, path⟩ := given
  exact Nat.lt_irrefl _ (farther path)

theorem Ascending.not_cyclic (ascending : graph.Ascending) : ¬ graph.Cyclic :=
  not_cyclic_of_growing id ascending

end Transducer.Graph
