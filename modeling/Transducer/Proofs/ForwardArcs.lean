import Transducer.Proofs.Deletions
import Transducer.Proofs.Refusals

/-! Changes to a sorted graph. A deletion moves the states that are left together but never past each other, and no
other change moves a state, so a graph stays sorted as long as every new arc leads to a greater number. -/

namespace Transducer

variable {W : Type}

/-- The call may not add an arc to the same or to a smaller number, and it may not order the states anew. -/
def Call.Forward : Call W → Prop
  | addArc source arc => source < arc.target
  | renumber _ => False
  | addState | setStart _ | setFinal _ _ | deleteFinal _ | deleteStates _ | deleteAllStates | deleteArcs _ _ | sort => True

namespace Graph

variable {graph next : Graph W} {kept : List Bool} {s t : StateId}

theorem rank_lt_rank (stays : kept[s]? = some true) (less : s < t) : rank kept s < rank kept t := by
  have counted : rank kept (s + 1) = rank kept s + 1 := by
    rw [rank, List.take_add_one, stays, List.count_append]
    rfl
  have prior : (kept.take (s + 1)).Sublist (kept.take t) := (List.take_prefix_take_left less).sublist
  calc rank kept s < rank kept (s + 1) := counted ▸ Nat.lt_succ_self _
    _ ≤ rank kept t := prior.count_le true

/-- Deleting states keeps the order of the others. -/
theorem newNumber?_lt {source target : StateId} (first : newNumber? kept s = some source)
    (second : newNumber? kept t = some target) (less : s < t) : source < target := by
  obtain ⟨stays, rfl⟩ := newNumber?_eq_some_iff.mp first
  obtain ⟨-, rfl⟩ := newNumber?_eq_some_iff.mp second
  exact rank_lt_rank stays less

/-- An arc that is left after a deletion stood between the old numbers. -/
theorem edge_compact {source target : StateId} (sized : kept.length = graph.size)
    (edge : (graph.compact (compactFrom 0 kept).toArray).Edge source target) :
    ∃ s t, graph.Edge s t ∧ newNumber? kept s = some source ∧ newNumber? kept t = some target := by
  obtain ⟨state, found, arc, member, rfl⟩ := edge_iff.mp edge
  rw [← Array.getElem?_toList, states_compact, List.getElem?_map] at found
  obtain ⟨original, placed, rfl⟩ := Option.map_eq_some_iff.mp found
  have matched : graph.states.toList.length = kept.length := by simp [sized, size]
  obtain ⟨s, moved, listed⟩ := (pick_getElem?_iff matched).mp placed
  rw [Array.getElem?_toList] at listed
  obtain ⟨old, present, redirected⟩ := Array.mem_filterMap.mp member
  obtain ⟨target, led, rfl⟩ := Option.map_eq_some_iff.mp redirected
  exact ⟨s, old.target, edge_iff.mpr ⟨original, listed, old, present, rfl⟩, moved, led⟩

namespace Ascending

theorem addState (ascending : graph.Ascending) : graph.addState.Ascending := by
  intro source target edge
  obtain ⟨state, found, arc, member, rfl⟩ := edge_iff.mp edge
  rw [Graph.addState, Array.getElem?_push] at found
  split at found
  next =>
    cases found
    cases Array.not_mem_empty arc member
  next => exact ascending source arc.target (edge_iff.mpr ⟨state, found, arc, member, rfl⟩)

theorem update {change : State W → State W} (ascending : graph.Ascending)
    (onward : ∀ state, ∀ arc ∈ (change state).arcs, arc ∈ state.arcs ∨ s < arc.target)
    (done : graph.update s change = .ok next) : next.Ascending := by
  unfold Graph.update at done
  split at done
  next =>
    cases done
    intro source target edge
    obtain ⟨state, found, arc, member, rfl⟩ := edge_iff.mp edge
    rw [modify, Array.getElem?_modify] at found
    split at found
    next here =>
      subst here
      obtain ⟨before, old, rfl⟩ := Option.map_eq_some_iff.mp found
      rcases onward before arc member with known | less
      · exact ascending s arc.target (edge_iff.mpr ⟨before, old, arc, known, rfl⟩)
      · exact less
    next => exact ascending source arc.target (edge_iff.mpr ⟨state, found, arc, member, rfl⟩)
  next => cases done

theorem deleteStates {doomed : List StateId} (ascending : graph.Ascending)
    (done : graph.deleteStates doomed = .ok next) : next.Ascending := by
  by_cases live : ∀ s ∈ doomed, s < graph.size
  · rw [deleteStates_of_live live] at done
    cases done
    intro source target edge
    obtain ⟨s, t, before, first, second⟩ := edge_compact (length_staying doomed graph.size) edge
    exact newNumber?_lt first second (ascending s t before)
  · obtain ⟨error, failed⟩ := deleteStates_of_not_live live
    cases failed.symm.trans done

theorem deleteArcs {positions : List Nat} (ascending : graph.Ascending)
    (done : graph.deleteArcs s positions = .ok next) : next.Ascending := by
  cases found : graph.states[s]? with
  | none => cases (deleteArcs_of_absent found).symm.trans done
  | some state =>
    by_cases live : ∀ position ∈ positions, position < state.arcs.size
    · rw [deleteArcs_of_live found live, ← update_of_live (Array.getElem?_eq_some_iff.mp found).1] at done
      refine ascending.update (fun state arc member => .inl ?_) done
      simpa using pick_subset _ _ (List.mem_toArray.mp member)
    · obtain ⟨error, failed⟩ := deleteArcs_of_not_live found live
      cases failed.symm.trans done

/-- One call keeps a graph sorted. -/
theorem call {call : Call W} (ascending : graph.Ascending) (forward : call.Forward)
    (done : graph.call call = .ok next) : next.Ascending := by
  cases call with
  | addState =>
    cases done
    exact ascending.addState
  | addArc source arc =>
    obtain ⟨_, -, done⟩ := except_bind_ok.mp done
    refine ascending.update (fun state other member => ?_) done
    rcases Array.mem_push.mp member with old | rfl
    · exact .inl old
    · exact .inr forward
  | setStart s =>
    obtain ⟨_, -, ⟨⟩⟩ := except_bind_ok.mp done
    exact ascending
  | setFinal s weight =>
    refine ascending.update ?_ done
    exact fun _ _ => .inl
  | deleteFinal s =>
    refine ascending.update ?_ done
    exact fun _ _ => .inl
  | deleteStates doomed => exact ascending.deleteStates done
  | deleteAllStates =>
    cases done
    intro source target edge
    exact absurd edge.source_lt (Nat.not_lt_zero source)
  | deleteArcs s positions =>
    cases positions with
    | none => exact ascending.update (fun _ _ member => (Array.not_mem_empty _ member).elim) done
    | some positions => exact ascending.deleteArcs done
  | renumber order => exact forward.elim
  | sort =>
    rw [Graph.call, sorted?_of_ascending ascending] at done
    cases done
    exact ascending

end Ascending

/-- The graph names states only, and it is sorted. -/
structure Arranged (graph : Graph W) : Prop where
  formed : graph.WellFormed
  ascending : graph.Ascending

/-- A call that fails changes nothing. -/
theorem Arranged.after {call : Call W} (arranged : graph.Arranged) (forward : call.Forward) :
    (graph.after call).Arranged := by
  cases outcome : graph.call call with
  | error error => rwa [after_of_error outcome]
  | ok next =>
    rw [after_of_ok outcome]
    exact ⟨arranged.formed.call outcome, arranged.ascending.call forward outcome⟩

theorem Arranged.run {calls : List (Call W)} (arranged : graph.Arranged) (forward : ∀ call ∈ calls, call.Forward) :
    (calls.foldl Graph.after graph).Arranged := by
  induction calls generalizing graph with
  | nil => exact arranged
  | cons call calls ih =>
    obtain ⟨first, others⟩ := List.forall_mem_cons.mp forward
    exact ih (arranged.after first) others

/-- A sorted graph is sorted after every one of any calls, of which some may fail, if no call adds an arc that leads to
the same or to a smaller number or orders the states anew. So sorting finds nothing to do at any time. -/
theorem calls_keep_sorted (formed : graph.WellFormed) (sorted : graph.isSorted = true) {calls : List (Call W)}
    (forward : ∀ call ∈ calls, call.Forward) :
    ∀ front, front <+: calls → (front.foldl after graph).WellFormed ∧ (front.foldl after graph).isSorted = true ∧
      (front.foldl after graph).sorted? = .ok (some (front.foldl after graph)) := by
  intro front before
  have arranged : (front.foldl after graph).Arranged :=
    Arranged.run ⟨formed, isSorted_iff.mp sorted⟩ fun call member => forward call (before.subset member)
  exact ⟨arranged.formed, isSorted_iff.mpr arranged.ascending, sorted?_of_ascending arranged.ascending⟩

/-- Three states in a row with an arc past the middle one. -/
def ladder : Graph Unit where
  start := some 0
  states := #[{ arcs := #[⟨1, 1, (), 1⟩, ⟨2, 2, (), 2⟩] }, { arcs := #[⟨3, 3, (), 2⟩] }, { final := some () }]

/-- The middle state is deleted, an arc to a state that is not there fails, and a new state is added at the end. -/
theorem ladder_kept_sorted : ∃ result : Graph Unit,
    [.deleteStates [1], .addArc 1 ⟨4, 4, (), 2⟩, .addState, .addArc 1 ⟨5, 5, (), 2⟩].foldl after ladder = result ∧
    result.states.map (fun state => state.arcs.map Arc.target) = #[#[1], #[2], #[]] ∧ result.isSorted = true ∧
    result.sorted? = .ok (some result) := by
  have formed : ladder.WellFormed := ⟨by rintro s ⟨⟩; decide, by decide⟩
  have forward : ∀ call ∈ ([.deleteStates [1], .addArc 1 ⟨4, 4, (), 2⟩, .addState, .addArc 1 ⟨5, 5, (), 2⟩] :
      List (Call Unit)), call.Forward := by
    simp [Call.Forward]
  obtain ⟨-, sorted, again⟩ := calls_keep_sorted formed (by decide +kernel) forward _ (List.prefix_refl _)
  exact ⟨_, rfl, by decide +kernel, sorted, again⟩

end Graph

end Transducer
