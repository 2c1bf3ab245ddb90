import Transducer.Proofs.LostNumbers

/-! The topological order of any graph. There is one if and only if the graph names states only and has no cycle, and
then it counts the states from the last one that a whole search finishes. Without an order there is a cycle, or a
number that is no state. -/

namespace Transducer

variable {W V : Type}

namespace Departures

variable {heard : List (Event W)} {departures : Departures}

/-- The departures are the finished states, the last one first. -/
theorem left_hearing (departures : Departures) (heard : List (Event W)) :
    (hearing visit departures heard).left = (finishes heard).reverse ++ departures.left := by
  induction heard using List.reverseRecOn with
  | nil => rfl
  | append_singleton heard event ih =>
    have next : ((hearing visit departures heard).visit event).1.left =
        event.finished?.toList ++ (hearing visit departures heard).left := by
      cases event <;> rfl
    rw [hearing_concat, next, ih, finishes_append, finishes_singleton]
    cases event <;> simp [Event.finished?]

/-- The search for an order goes on until it meets a cycle. -/
theorem agrees_of_acyclic (acyclic : (hearing visit departures heard).acyclic = true) :
    Agrees visit departures heard := by
  induction heard using List.reverseRecOn with
  | nil => trivial
  | append_singleton heard event ih =>
    rw [hearing_concat] at acyclic
    refine agrees_concat.mpr ⟨ih ?_, fun asks => ?_⟩
    · cases event <;> first | exact acyclic | cases acyclic
    · cases event <;> first | rfl | cases acyclic

end Departures

namespace Graph
open Departures

variable {graph : Graph W} {order : Array StateId} {s t : StateId}

/-- A visitor that never says no hears what all such visitors hear. -/
theorem WellFormed.events_eq_tour {visit : V → Event W → V × Bool} {visitor : V} (formed : graph.WellFormed)
    (agrees : Agrees visit visitor (graph.events visit visitor)) : graph.events visit visitor = graph.tour := by
  have curtailed : graph.events visit visitor = curtailed visit visitor [] graph.tour :=
    Search.events_eq_curtailed formed visitor [] (Search.begin_keeps graph)
  rw [curtailed] at agrees ⊢
  exact curtailed_of_agrees agrees

theorem agrees_of_always {visit : V → Event W → V × Bool}
    (always : ∀ visitor event, event.asks = true → (visit visitor event).2 = true) (visitor : V)
    (heard : List (Event W)) : Agrees visit visitor heard := by
  induction heard generalizing visitor with
  | nil => trivial
  | cons event heard ih => exact ⟨always visitor event, ih _⟩

/-- The states in the order in which a whole search leaves them, the last one first. -/
def departed (graph : Graph W) : List StateId := (finishes graph.tour).reverse

/-- The search for an order that meets no cycle is a whole one. -/
theorem departures_eq {departures : Departures} (ended : graph.search Departures.visit {} = (departures, .ok ()))
    (acyclic : departures.acyclic = true) :
    graph.WellFormed ∧ departures.left = graph.departed ∧ Topological graph graph.departed := by
  have heard := search_hearing graph Departures.visit {}
  have settled := search_settles graph
  rw [ended] at heard settled
  change departures = _ at heard
  change if departures.acyclic then Topological graph departures.left else graph.Cyclic at settled
  rw [if_pos acyclic] at settled
  have agrees : Agrees Departures.visit {} (graph.events Departures.visit {}) := agrees_of_acyclic (heard ▸ acyclic)
  have formed : graph.WellFormed := (search_ends graph Departures.visit {}).2.2.2 (by rw [ended]) agrees
  have left : departures.left = graph.departed := by
    rw [heard, left_hearing, formed.events_eq_tour agrees, departed]
    exact List.append_nil _
  exact ⟨formed, left, left ▸ settled⟩

theorem topOrder?_eq_some (found : graph.topOrder? = .ok (some order)) :
    graph.WellFormed ∧ Topological graph graph.departed ∧ ranks graph.departed = order := by
  unfold topOrder? at found
  split at found
  next => cases found
  next departures ended =>
    cases acyclic : departures.acyclic with
    | false => simp [acyclic] at found
    | true =>
      obtain ⟨formed, left, topological⟩ := departures_eq ended acyclic
      refine ⟨formed, topological, ?_⟩
      simpa [acyclic, left] using found

theorem WellFormed.topOrder?_of_acyclic (formed : graph.WellFormed) (acyclic : ¬ graph.Cyclic) :
    graph.topOrder? = .ok (some (ranks graph.departed)) := by
  rcases topOrder?_cases graph with ⟨left, found, -⟩ | ⟨-, cyclic⟩ | ⟨s, -, lost⟩
  · rw [found, (topOrder?_eq_some found).2.2]
  · exact absurd cyclic acyclic
  · exact (formed.not_lost lost).elim

/-- The states are numbered from the last one that is finished. -/
theorem ranks_departed (topological : Topological graph graph.departed) {k : Nat}
    (finished : (finishes graph.tour)[k]? = some s) : (ranks graph.departed)[s]? = some (graph.size - 1 - k) := by
  obtain ⟨bound, same⟩ := List.getElem?_eq_some_iff.mp finished
  have length : (finishes graph.tour).length = graph.size := by
    rw [← topological.length, departed, List.length_reverse]
  have inside : graph.size - 1 - k < graph.departed.length := by
    rw [topological.length]
    omega
  have place : graph.departed[graph.size - 1 - k] = s := by
    have back : (finishes graph.tour).length - 1 - (graph.size - 1 - k) = k := by omega
    simp only [departed, List.getElem_reverse, back, same]
  have member : s ∈ graph.departed := place ▸ List.getElem_mem inside
  have position : graph.departed.idxOf s = graph.size - 1 - k := by
    rw [← place, topological.distinct.idxOf_getElem]
  rw [topological.ranks_getElem? ((topological.member s).mp member), position]

/-- A graph whose states a word counts has an order if and only if it names states only and no state leads back to
itself. It is a permutation in words that grows along every arc and the reverse of the order in which a search that is
not stopped finishes the states. If there is none, then for a cycle or for a number that is no state. -/
theorem topOrder_settles {graph : Graph W} (counted : graph.Counted) :
    (Search.begin graph).roots = graph.start.toList ++ graph.ids ∧
    ((∃ order, graph.topOrder? = .ok (some order)) ↔ graph.WellFormed ∧ ¬ graph.Cyclic) ∧
    (∀ order, graph.topOrder? = .ok (some order) →
      order.size = graph.size ∧ order.toList.Perm (List.range graph.size) ∧ (∀ rank ∈ order, rank < UInt32.size) ∧
      (∀ s t, graph.Edge s t → ∃ i j, order[s]? = some i ∧ order[t]? = some j ∧ i < j) ∧
      ∀ (V : Type) (visit : V → Event W → V × Bool) (visitor : V),
        (∀ visitor event, event.asks = true → (visit visitor event).2 = true) →
        (finishes (graph.events visit visitor)).length = graph.size ∧
        ∀ (k : Nat) (s : StateId), (finishes (graph.events visit visitor))[k]? = some s →
          order[s]? = some (graph.size - 1 - k)) ∧
    (graph.topOrder? = .ok none → graph.Cyclic) ∧
    (∀ error, graph.topOrder? = .error error → ∃ s, error = .invalidState s ∧ Lost graph s) ∧
    ∀ departures, graph.search Departures.visit {} = (departures, .ok ()) → departures.acyclic = true →
      ∀ s ∈ departures.left, s < departures.left.length := by
  refine ⟨?_, ⟨?_, ?_⟩, ?_, ?_, ?_, ?_⟩
  · rw [counted.ids_eq, Search.begin]
  · intro given
    obtain ⟨order, found⟩ := given
    obtain ⟨formed, topological, -⟩ := topOrder?_eq_some found
    exact ⟨formed, topological.not_cyclic⟩
  · intro given
    exact ⟨_, given.1.topOrder?_of_acyclic given.2⟩
  · intro order found
    obtain ⟨formed, topological, rfl⟩ := topOrder?_eq_some found
    have permutation := topological.permutation
    refine ⟨permutation.sized, permutation.perm_range, fun rank member => ?_, fun s t edge => ?_,
      fun V visit visitor always => ?_⟩
    · exact Nat.lt_of_lt_of_le (permutation.bounded rank member) (Nat.le_trans counted (by decide))
    · have placed {u : StateId} (inside : u < graph.size) :
          (ranks graph.departed)[u]? = some (placing (ranks graph.departed) u) :=
        getElem?_eq_placing (permutation.sized ▸ inside)
      exact ⟨_, _, placed edge.source_lt, placed (formed.edge_target_lt edge), topological.placing_lt edge⟩
    · rw [formed.events_eq_tour (agrees_of_always always visitor _)]
      refine ⟨?_, fun k s => ranks_departed topological⟩
      rw [← topological.length, departed, List.length_reverse]
  · intro none
    rcases topOrder?_cases graph with ⟨left, found, -⟩ | ⟨-, cyclic⟩ | ⟨s, found, -⟩
    · cases none.symm.trans found
    · exact cyclic
    · cases none.symm.trans found
  · intro error failed
    rcases topOrder?_cases graph with ⟨left, found, -⟩ | ⟨found, -⟩ | ⟨s, found, lost⟩
    · cases failed.symm.trans found
    · cases failed.symm.trans found
    · cases failed.symm.trans found
      exact ⟨s, rfl, lost⟩
  · intro departures ended acyclic s member
    obtain ⟨-, left, topological⟩ := departures_eq ended acyclic
    rw [left] at member ⊢
    exact topological.length ▸ (topological.member s).mp member

theorem chains_ranked : ∃ order, chains.topOrder? = .ok (some order) ∧ order.toList.Perm [0, 1, 2, 3] ∧
    ∀ s t, chains.Edge s t → ∃ i j, order[s]? = some i ∧ order[t]? = some j ∧ i < j := by
  have counted : chains.Counted := by decide
  obtain ⟨_, sortable, ordered, _⟩ := topOrder_settles counted
  obtain ⟨order, found⟩ := sortable.mpr ⟨chains_wellFormed, chains_not_cyclic⟩
  obtain ⟨_, perm, _, growing, _⟩ := ordered order found
  exact ⟨order, found, perm, growing⟩

end Graph

end Transducer
