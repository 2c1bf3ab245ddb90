import Transducer.Proofs.LedgerAgreement
import Transducer.Proofs.Sorting

/-! A graph and the book kept beside it agree after every sequence of calls. Deleting states, permuting them
and sorting them change what the book has at each position and nothing that is written down under a tag. -/

namespace Transducer

variable {W : Type} {graph result : Graph W} {book : Book W} {order : Array StateId}

namespace Graph
open Departures

theorem after_sort (formed : graph.WellFormed) :
    (graph.sortingOrder? = none ∧ graph.after .sort = graph) ∨
    ∃ order, graph.sortingOrder? = some order ∧ Permutation graph.size order ∧
      graph.Renumbered (placing order) (graph.after .sort) := by
  have sorted {next : Option (Graph W)} (done : graph.sorted? = .ok next) : graph.after .sort = next.getD graph := by
    apply after_of_ok
    rw [call, done]
    rfl
  by_cases ascending : graph.Ascending
  · exact .inl ⟨if_pos (isSorted_iff.mpr ascending), sorted (sorted?_of_ascending ascending)⟩
  have unsorted := mt isSorted_iff.mp ascending
  rcases topOrder?_cases graph with ⟨left, found, topological⟩ | ⟨found, cyclic⟩ | ⟨s, found, lost⟩
  · obtain ⟨result, moved, renumbered⟩ := renumber_permutation formed topological.permutation
    refine .inr ⟨ranks left, by simp [sortingOrder?, unsorted, found, Except.toOption], topological.permutation, ?_⟩
    rw [sorted (sorted?_of_order ascending found moved)]
    exact renumbered
  · exact .inl ⟨by simp [sortingOrder?, unsorted, found, Except.toOption], sorted (sorted?_of_cycle cyclic found)⟩
  · exact (formed.not_lost lost).elim

end Graph

namespace Book
open Transducer.Graph

theorem rearrange_names (permutation : Permutation book.names.length order) :
    (book.rearrange order).names.Perm book.names := by
  have placed : (List.range book.names.length).map (placing order) = order.toList := by
    refine List.ext_getElem (by simp [permutation.sized]) fun s first second => ?_
    have inside : s < order.size := by simpa using second
    simp [placing, inside]
  have listed : (List.range book.names.length).map (fun s => book.names[s]?) = book.names.map some := by
    refine List.ext_getElem (by simp) fun s first second => ?_
    have inside : s < book.names.length := by simpa using second
    simp [inside]
  rw [rearrange, if_pos permutation.perm_range]
  calc ((List.range book.names.length).filterMap fun place => book.names[order.toList.idxOf place]?).Perm
        (order.toList.filterMap fun place => book.names[order.toList.idxOf place]?) :=
        permutation.perm_range.symm.filterMap _
    _ = (List.range book.names.length).filterMap fun s => book.names[s]? := by
      conv_lhs => rw [← placed, List.filterMap_map]
      apply List.filterMap_congr
      intro s member
      rw [Function.comp_apply, placed, permutation.idxOf_placing (List.mem_range.mp member)]
    _ = book.names := by
      rw [← Function.id_comp (fun s => book.names[s]?), ← List.filterMap_map, listed]
      simp

theorem rearrange_getElem? (permutation : Permutation book.names.length order) {s : StateId}
    (inside : s < book.names.length) : (book.rearrange order).names[placing order s]? = book.names[s]? := by
  have known (place : StateId) (bound : place < book.names.length) :
      book.names[order.toList.idxOf place]? = some ((book.names[order.toList.idxOf place]?).getD 0) := by
    obtain ⟨origin, inside, rfl⟩ := permutation.exists_placing bound
    rw [permutation.idxOf_placing inside, List.getElem?_eq_getElem inside]
    rfl
  have listed : (book.rearrange order).names =
      (List.range book.names.length).map fun place => (book.names[order.toList.idxOf place]?).getD 0 := by
    rw [rearrange, if_pos permutation.perm_range]
    exact List.filterMap_eq_map_iff_forall_eq_some.mpr fun place member => known place (List.mem_range.mp member)
  have bound := permutation.placing_lt inside
  rw [listed, List.getElem?_map, List.getElem?_range bound, Option.map_some, ← known _ bound,
    permutation.idxOf_placing inside]

theorem rearrange_ledger (book : Book W) (order : Array StateId) : (book.rearrange order).ledger = book.ledger := by
  unfold rearrange
  split <;> rfl

theorem rearrange_of_not_permutation (refused : ¬ Permutation book.names.length order) :
    book.rearrange order = book :=
  if_neg (mt permutation_iff_perm.mpr refused)

namespace Tells

theorem delete (tells : Tells book graph) {doomed : List Tag} (listed : doomed ⊆ book.names) :
    Tells (book.delete doomed)
      (graph.compact (compactFrom 0 (book.names.map (· ∉ doomed))).toArray) := by
  have names : (book.delete doomed).names = pick (book.names.map (· ∉ doomed)) book.names :=
    (pick_eq_filter _ _).symm
  constructor
  case sound => exact tells.sound.delete fun u member => ((tells.alive u).mp (listed member)).1
  case sized => rw [names, length_pick (by simp), size_compact (by simp [tells.sized])]
  case distinct => exact tells.distinct.filter _
  case alive =>
    intro u
    refine .trans ?_ (Ledger.alive_delete book.ledger doomed u).symm
    rw [← tells.alive]
    simp [Book.delete]
  case start =>
    have before := tells.start
    refine .trans ?_ (congrArg (Option.map some) (Ledger.start_delete book.ledger doomed)).symm
    cases start : graph.start with
    | none =>
      have none : book.ledger.graph.start = none := by simpa [start, eq_comm] using before
      rw [start_compact, start, none]
      rfl
    | some s =>
      obtain ⟨u, chosen, named⟩ : ∃ u, book.ledger.graph.start = some u ∧ book.names[s]? = some u := by
        simpa [start, Option.map_eq_some_iff, eq_comm] using before
      have lookup := filter_getElem?_newNumber? (· ∉ doomed) book.names s
      rw [named] at lookup
      rw [chosen, ← lookup, start_compact, start]
      rfl
  case states =>
    intro s u state named found
    obtain ⟨s', original, named', found', rfl⟩ := compact_origin (names ▸ named) found
    exact (tells.states s' u original named' found').redirect doomed

theorem deleteAt (tells : Tells book graph) (doomed : List StateId) :
    Tells (book.deleteAt doomed) (graph.after (.deleteStates doomed)) := by
  unfold Book.deleteAt
  rw [tells.sized]
  split
  next live =>
    have kept : (book.names.map fun u => decide (u ∉ doomed.filterMap fun s => book.names[s]?)) =
        staying doomed graph.size := by
      refine List.ext_getElem (by simp [staying, tells.sized]) fun s first second => ?_
      have inside : s < book.names.length := by simpa using first
      simp only [staying, List.getElem_map, List.getElem_range, decide_eq_decide, not_iff_not, List.mem_filterMap]
      constructor
      · intro given
        obtain ⟨s', member, same⟩ := given
        exact tells.position_inj same (List.getElem?_eq_getElem inside) ▸ member
      · exact fun member => ⟨s, member, List.getElem?_eq_getElem inside⟩
    have done : graph.call (.deleteStates doomed) = _ := deleteStates_of_live live
    rw [Graph.after_of_ok done, ← kept]
    apply tells.delete
    intro u member
    obtain ⟨s, _, named⟩ := List.mem_filterMap.mp member
    exact List.mem_of_getElem? named
  next lost =>
    obtain ⟨error, failed⟩ := deleteStates_of_not_live lost
    have failed : graph.call (.deleteStates doomed) = .error error := failed
    rw [Graph.after_of_error failed]
    exact tells

theorem deleteAll (tells : Tells book graph) : Tells (book.delete book.names) (Graph.empty : Graph W) := by
  have gone : true ∉ book.names.map fun u => decide (u ∉ book.names) := by simp
  have sized : (book.names.map fun u => decide (u ∉ book.names)).length = graph.size := by simp [tells.sized]
  rw [← compact_none sized gone]
  exact tells.delete (List.Subset.refl _)

theorem renumbered (tells : Tells book graph) (permutation : Permutation graph.size order)
    (renumbered : graph.Renumbered (placing order) result) : Tells (book.rearrange order) result := by
  have permutation : Permutation book.names.length order := tells.sized ▸ permutation
  have perm := rearrange_names permutation
  have named (s : StateId) (inside : s < graph.size) :
      (book.rearrange order).names[placing order s]? = book.names[s]? :=
    rearrange_getElem? permutation (tells.sized ▸ inside)
  have ledger := book.rearrange_ledger order
  constructor
  case sound => exact ledger ▸ tells.sound
  case sized => rw [perm.length_eq, tells.sized, renumbered.sized]
  case distinct => exact perm.nodup_iff.mpr tells.distinct
  case alive => exact fun u => ledger ▸ perm.mem_iff.trans (tells.alive u)
  case start =>
    rw [ledger, ← tells.start, renumbered.start, Option.map_map]
    exact Option.map_congr fun s start => named s (tells.wellFormed.start s start)
  case states =>
    intro place u moved listed found
    obtain ⟨s, state, before, rfl, rfl⟩ := renumbered.origin found
    have inside := (Array.getElem?_eq_some_iff.mp before).1
    have described := tells.states s u state ((named s inside).symm.trans listed) before
    rw [ledger]
    refine ⟨described.final, .trans ?_ described.arcs⟩
    rw [State.relocate, Array.toList_map, List.map_map]
    apply List.map_congr_left
    intro arc member
    have target := tells.wellFormed.targets state (Array.mem_of_getElem? before) arc (Array.mem_toList_iff.mp member)
    simp only [Function.comp_apply, Arc.name?, named arc.target target]

theorem renumber (tells : Tells book graph) (order : Array StateId) :
    Tells (book.rearrange order) (graph.after (.renumber order)) := by
  by_cases permutation : Permutation graph.size order
  · obtain ⟨result, done, moved⟩ := renumber_permutation tells.wellFormed permutation
    have done : graph.call (.renumber order) = .ok result := done
    rw [Graph.after_of_ok done]
    exact tells.renumbered permutation moved
  · have failed : graph.call (.renumber order) = .error .invalidPermutation := renumber_error permutation
    rw [rearrange_of_not_permutation (tells.sized ▸ permutation), Graph.after_of_error failed]
    exact tells

theorem sort (tells : Tells book graph) :
    Tells ((graph.sortingOrder?.map book.rearrange).getD book) (graph.after .sort) := by
  rcases after_sort tells.wellFormed with ⟨none, same⟩ | ⟨order, found, permutation, moved⟩
  · rw [none, same]
    exact tells
  · rw [found]
    exact tells.renumbered permutation moved

/-- The graph and the book agree after a call if they did before. -/
theorem record (tells : Tells book graph) (call : Call W) : Tells (book.record graph call) (graph.after call) := by
  cases call with
  | addState => exact tells.addState
  | addArc source arc => exact tells.addArc source arc
  | setStart s => exact tells.setStart s
  | setFinal s weight => exact tells.setFinal s (some weight)
  | deleteFinal s => exact tells.setFinal s none
  | deleteStates doomed => exact tells.deleteAt doomed
  | deleteAllStates => exact tells.deleteAll
  | deleteArcs s positions =>
    cases positions with
    | none => exact tells.deleteAllArcs s
    | some positions => exact tells.deleteArcs s positions
  | renumber order => exact tells.renumber order
  | sort => exact tells.sort

end Tells

theorem ofCalls_tells (calls : List (Call W)) : Tells (ofCalls calls) (Graph.afterAll calls) := by
  have both (graph : Graph W) (book : Book W) (tells : Tells book graph) :
      Tells (calls.foldl step (graph, book)).2 (calls.foldl Graph.after graph) := by
    induction calls generalizing graph book with
    | nil => exact tells
    | cons call calls ih => exact ih _ _ (tells.record call)
  exact both Graph.empty {} empty_tells

end Book

namespace Graph

/-- After any sequence of calls on an empty graph, the graph that is read under the tags of its states is
the one that was written down. Each state that is there has one position, and no arc leads elsewhere. -/
theorem afterAll_reads (calls : List (Call W)) :
    (afterAll calls).read (Book.ofCalls calls).names = (Book.ofCalls calls).ledger.graph ∧
    (Book.ofCalls calls).names.length = (afterAll calls).size ∧ (Book.ofCalls calls).names.Nodup ∧
    (∀ t, t ∈ (Book.ofCalls calls).names ↔ (Book.ofCalls calls).ledger.Alive t) ∧ (afterAll calls).WellFormed := by
  have tells := Book.ofCalls_tells calls
  exact ⟨tells.read, tells.sized, tells.distinct, tells.alive, tells.wellFormed⟩

end Graph

end Transducer
