import Transducer.Proofs.DepartureOrder
import Transducer.Proofs.Renumbering

/-! Topological sorting as a whole. A graph without a cycle becomes the same graph under numbers that grow
along every arc, and a graph with one stays as it is. What is sorted already is not touched. -/

namespace Transducer
open Relation

variable {W : Type} {graph : Graph W} {left : List StateId}

namespace Departures

theorem Ordered.idxOf_lt (ordered : Ordered graph left) (distinct : left.Nodup) {s t : StateId}
    (member : s ∈ left) (edge : graph.Edge s t) : left.idxOf s < left.idxOf t ∧ t ∈ left := by
  induction left with
  | nil => cases member
  | cons first rest ih =>
    obtain ⟨absent, distinct⟩ := List.nodup_cons.mp distinct
    by_cases same : first = s
    · subst same
      have later := ordered.1 t edge
      have other : first ≠ t := fun equal => absent (equal ▸ later)
      exact ⟨by simp [List.idxOf_cons_ne rest other], List.mem_cons_of_mem first later⟩
    · have inside := (List.mem_cons.mp member).resolve_left (Ne.symm same)
      obtain ⟨less, later⟩ := ih ordered.2 distinct inside
      have other : first ≠ t := fun equal => absent (equal ▸ later)
      rw [List.idxOf_cons_ne rest same, List.idxOf_cons_ne rest other]
      exact ⟨Nat.succ_lt_succ less, List.mem_cons_of_mem first later⟩

theorem size_ranks (left : List StateId) : (ranks left).size = left.length := by
  simp only [ranks, Graph.foldl_setIfInBounds_size, Array.size_replicate]

theorem ranks_getElem? (distinct : left.Nodup) (bounded : ∀ s ∈ left, s < left.length) {s : StateId}
    (member : s ∈ left) : (ranks left)[s]? = some (left.idxOf s) := by
  have names : left.zipIdx.map Prod.fst = left := List.zipIdx_map_fst 0 left
  have located : (s, left.idxOf s) ∈ left.zipIdx := by
    rw [List.mem_zipIdx_iff_getElem?]
    exact List.getElem?_idxOf member
  exact Graph.foldl_setIfInBounds_getElem? (names.symm ▸ distinct) located (by simpa using bounded s member)

namespace Topological

theorem length (topological : Topological graph left) : left.length = graph.size := by
  have perm : left.Perm (List.range graph.size) :=
    (List.perm_ext_iff_of_nodup topological.distinct List.nodup_range).mpr fun s => by
      rw [topological.member, List.mem_range]
  simpa using perm.length_eq

theorem ranks_getElem? (topological : Topological graph left) {s : StateId} (inside : s < graph.size) :
    (ranks left)[s]? = some (left.idxOf s) :=
  Departures.ranks_getElem? topological.distinct
    (fun t member => topological.length ▸ (topological.member t).mp member) ((topological.member s).mpr inside)

theorem permutation (topological : Topological graph left) : Graph.Permutation graph.size (ranks left) := by
  have member {s : StateId} (inside : s < graph.size) := (topological.member s).mpr inside
  refine .of_injective left.idxOf ((size_ranks left).trans topological.length)
    (fun s inside => topological.ranks_getElem? inside) (fun s inside => ?_) fun s first t second same => ?_
  · exact topological.length ▸ List.idxOf_lt_length_of_mem (member inside)
  · exact (List.idxOf_inj (member first)).mp same

theorem placing_lt (topological : Topological graph left) {s t : StateId} (edge : graph.Edge s t) :
    Graph.placing (ranks left) s < Graph.placing (ranks left) t := by
  have member := (topological.member s).mpr edge.source_lt
  obtain ⟨less, later⟩ := topological.ordered.idxOf_lt topological.distinct member edge
  simpa only [Graph.placing, topological.ranks_getElem? edge.source_lt,
    topological.ranks_getElem? ((topological.member t).mp later), Option.getD_some] using less

theorem not_cyclic (topological : Topological graph left) : ¬ graph.Cyclic :=
  Graph.not_cyclic_of_growing (Graph.placing (ranks left)) fun _ _ edge => topological.placing_lt edge

end Topological

end Departures

namespace Graph
open Departures

theorem sorted?_of_ascending (ascending : graph.Ascending) : graph.sorted? = .ok (some graph) := by
  simp only [sorted?, isSorted_iff.mpr ascending, if_true]
  rfl

theorem sorted?_of_none (unsorted : ¬ graph.Ascending) (found : graph.topOrder? = .ok none) :
    graph.sorted? = .ok none := by
  simp only [sorted?, mt isSorted_iff.mp unsorted, found]
  rfl

theorem sorted?_of_cycle (cyclic : graph.Cyclic) (found : graph.topOrder? = .ok none) : graph.sorted? = .ok none :=
  sorted?_of_none (fun ascending => ascending.not_cyclic cyclic) found

theorem sorted?_of_order {order : Array StateId} {result : Graph W} (unsorted : ¬ graph.Ascending)
    (found : graph.topOrder? = .ok (some order)) (moved : graph.renumber order = .ok result) :
    graph.sorted? = .ok (some result) := by
  simp only [sorted?, mt isSorted_iff.mp unsorted, found]
  simp only [bind, Except.bind, moved]
  rfl

theorem WellFormed.not_lost (formed : graph.WellFormed) {s : StateId} (lost : Lost graph s) : False := by
  obtain ⟨outside, start | ⟨source, edge⟩⟩ := lost
  · exact Nat.not_lt.mpr outside (formed.start s start)
  · exact Nat.not_lt.mpr outside (formed.edge_target_lt edge)

/-- Sorting a well-formed graph finds a cycle, or moves the states so that every arc leads to a greater
number. -/
theorem sorted?_cases (formed : graph.WellFormed) :
    (graph.Cyclic ∧ graph.sorted? = .ok none) ∨
    (¬ graph.Cyclic ∧ ∃ result place,
      graph.sorted? = .ok (some result) ∧ graph.Renumbered place result ∧ result.Ascending) := by
  by_cases ascending : graph.Ascending
  · exact .inr ⟨ascending.not_cyclic, graph, id, sorted?_of_ascending ascending, .refl graph, ascending⟩
  rcases topOrder?_cases graph with ⟨left, found, topological⟩ | ⟨found, cyclic⟩ | ⟨s, found, lost⟩
  · obtain ⟨result, moved, renumbered⟩ := renumber_permutation formed topological.permutation
    refine .inr ⟨topological.not_cyclic, result, _, sorted?_of_order ascending found moved, renumbered, ?_⟩
    intro source target edge
    obtain ⟨s, t, before, rfl, rfl⟩ := renumbered.edge edge
    exact topological.placing_lt before
  · exact .inl ⟨cyclic, sorted?_of_cycle cyclic found⟩
  · exact (formed.not_lost lost).elim

theorem Renumbered.ids_perm {place : StateId → StateId} {result : Graph W} (renumbered : graph.Renumbered place result)
    (counted : graph.Counted) : (graph.ids.map place).Perm result.ids := by
  have resultCounted : result.Counted := Nat.le_trans (Nat.le_of_eq renumbered.sized) counted
  obtain ⟨into, injective, onto⟩ := renumbered.bijective
  have distinct : ((List.range graph.size).map place).Nodup :=
    List.nodup_range.map_on fun s first t second same =>
      injective (List.mem_range.mp first) (List.mem_range.mp second) same
  rw [counted.ids_eq, resultCounted.ids_eq, renumbered.sized]
  refine (List.perm_ext_iff_of_nodup distinct List.nodup_range).mpr fun target => ?_
  simp only [List.mem_map, List.mem_range]
  constructor
  · intro given
    obtain ⟨s, inside, rfl⟩ := given
    exact into inside
  · intro inside
    exact onto inside

/-- Sorting never fails on a well-formed graph whose states a word counts. Without a cycle it gives the same graph
under numbers that grow along every arc, and sorting that one again changes nothing. With a cycle anywhere it gives no
new graph, and one that is sorted already it gives back. -/
theorem sorting_settles (counted : graph.Counted) (formed : graph.WellFormed) :
    (¬ graph.Cyclic → ∃ result place, graph.sorted? = .ok (some result) ∧ result.Ascending ∧
      graph.Renumbered place result ∧ (graph.ids.map place).Perm result.ids ∧ result.sorted? = .ok (some result)) ∧
    (graph.Cyclic → graph.sorted? = .ok none) ∧
    (graph.Ascending → graph.sorted? = .ok (some graph)) := by
  refine ⟨fun acyclic => ?_, fun cyclic => ?_, sorted?_of_ascending⟩
  · rcases sorted?_cases formed with ⟨cyclic, _⟩ | ⟨_, result, place, found, renumbered, ascending⟩
    · exact absurd cyclic acyclic
    · exact ⟨result, place, found, ascending, renumbered, renumbered.ids_perm counted, sorted?_of_ascending ascending⟩
  · rcases sorted?_cases formed with ⟨_, found⟩ | ⟨acyclic, _⟩
    · exact found
    · exact absurd cyclic acyclic

/-- Two chains that meet at the first state, with two arcs between one pair of states. -/
def chains : Graph Unit where
  start := some 2
  states := #[{ final := some () }, { arcs := #[⟨1, 1, (), 0⟩] }, { arcs := #[⟨2, 1, (), 1⟩, ⟨3, 1, (), 1⟩] },
    { arcs := #[⟨4, 1, (), 0⟩] }]

theorem chains_wellFormed : chains.WellFormed := ⟨by rintro s ⟨⟩; decide, by decide⟩

theorem chains_not_cyclic : ¬ chains.Cyclic := by
  apply not_cyclic_of_growing (4 - ·)
  intro source target edge
  obtain ⟨state, found, arc, member, rfl⟩ := edge_iff.mp edge
  have descending : ∀ s < 4, ∀ arc ∈ chains.arcsFrom s, arc.target < s := by decide
  have inside : source < 4 := edge.source_lt
  have less := descending source inside arc (by simpa [arcsFrom_of_getElem? found] using member)
  exact Nat.sub_lt_sub_left (Nat.lt_trans less inside) less

theorem chains_settle : ∃ result place, chains.sorted? = .ok (some result) ∧ result.Ascending ∧
    chains.Renumbered place result ∧ ([0, 1, 2, 3].map place).Perm result.ids ∧ result.sorted? = .ok (some result) :=
  (sorting_settles (by decide) chains_wellFormed).1 chains_not_cyclic

end Graph

end Transducer
