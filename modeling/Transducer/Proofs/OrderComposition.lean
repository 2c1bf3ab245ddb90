import Transducer.Proofs.Sorting

/-! Orders that are applied one after the other. Where every state ends up and what it carries determine a renumbered
graph, so two orders in turn are one order, the order that leaves every state in place does nothing, and an inverse
order takes everything back. -/

namespace Transducer.Graph

variable {W : Type} {graph between result other : Graph W} {place next : StateId → StateId} {s size : Nat}
  {first second order : Array StateId}

theorem State.relocate_relocate (state : State W) (place next : StateId → StateId) :
    (state.relocate place).relocate next = state.relocate (next ∘ place) := by
  simp [State.relocate]

theorem State.relocate_congr {state : State W} (same : ∀ arc ∈ state.arcs, place arc.target = next arc.target) :
    state.relocate place = state.relocate next := by
  have arcs := Array.map_congr_left fun arc member => congrArg (fun target => { arc with target }) (same arc member)
  exact congrArg (fun arcs => { state with arcs }) arcs

namespace Renumbered

/-- A graph can be renumbered in one way only. -/
theorem unique (renumbered : graph.Renumbered place result) (again : graph.Renumbered place other) :
    result = other := by
  rw [Graph.mk.injEq]
  refine ⟨renumbered.start.trans again.start.symm, Array.ext (renumbered.sized.trans again.sized.symm) ?_⟩
  intro target here there
  obtain ⟨s, state, found, rfl, moved⟩ := renumbered.origin (Array.getElem?_eq_getElem here)
  have same := (again.states s state found).symm.trans (Array.getElem?_eq_getElem there)
  exact moved.trans (Option.some.inj same)

theorem trans (renumbered : graph.Renumbered place between) (further : between.Renumbered next result) :
    graph.Renumbered (next ∘ place) result where
  sized := further.sized.trans renumbered.sized
  bijective := (renumbered.sized ▸ further.bijective).comp renumbered.bijective
  start := by rw [further.start, renumbered.start, Option.map_map]
  states s state found := by
    rw [← State.relocate_relocate]
    exact further.states (place s) _ (renumbered.states s state found)

/-- Only the places of the states count, for a well-formed graph names nothing else. -/
theorem congr (formed : graph.WellFormed) (same : ∀ s < graph.size, place s = next s)
    (renumbered : graph.Renumbered place result) : graph.Renumbered next result where
  sized := renumbered.sized
  bijective := renumbered.bijective.congr same
  start := by
    rw [renumbered.start]
    exact Option.map_congr fun s start => same s (formed.start s start)
  states s state found := by
    have inside := (Array.getElem?_eq_some_iff.mp found).1
    have moved : state.relocate place = state.relocate next :=
      State.relocate_congr fun arc member => same arc.target (formed.targets state (Array.mem_of_getElem? found) arc member)
    rw [← moved, ← same s inside]
    exact renumbered.states s state found

end Renumbered

/-- The order that moves every state by the first order and then by the second. -/
def andThen (first second : Array StateId) : Array StateId := first.map (placing second)

theorem placing_andThen (inside : s < first.size) :
    placing (andThen first second) s = placing second (placing first s) := by
  simp [placing, andThen, inside]

namespace Permutation

theorem of_bijective (sized : order.size = size)
    (bijective : Set.BijOn (placing order) (Set.Iio size) (Set.Iio size)) : Permutation size order := by
  apply of_injective (placing order) sized
  · exact fun s inside => getElem?_eq_placing (sized ▸ inside)
  · exact fun s inside => bijective.mapsTo inside
  · exact fun s inside t inside' same => bijective.injOn inside inside' same

theorem andThen (initial : Permutation size first) (final : Permutation size second) :
    Permutation size (Graph.andThen first second) := by
  apply of_bijective
  · simpa [Graph.andThen] using initial.sized
  · apply (final.bijective.comp initial.bijective).congr
    exact fun s inside => (placing_andThen (initial.sized ▸ inside)).symm

theorem left_of_andThen (sized : second.size = size) (both : Permutation size (Graph.andThen first second)) :
    Permutation size first := by
  refine ⟨by simpa [Graph.andThen] using both.sized, ?_, fun place member => ?_⟩
  · exact List.Nodup.of_map (placing second) (by simpa [Graph.andThen] using both.distinct)
  · -- what is no state stays where it is, and the whole order names states only
    by_contra outside
    have stays : placing second place = place := by simp [placing, sized, outside]
    exact outside (stays ▸ both.bounded _ (Array.mem_map_of_mem member))

theorem right_of_andThen (sized : second.size = size) (both : Permutation size (Graph.andThen first second)) :
    Permutation size second := by
  have initial := both.left_of_andThen sized
  have moves {s : StateId} (inside : s < size) :
      placing (Graph.andThen first second) s = placing second (placing first s) :=
    placing_andThen (initial.sized ▸ inside)
  apply of_bijective sized
  refine ⟨fun t inside => ?_, fun t inside t' inside' equal => ?_, fun place inside => ?_⟩
  · obtain ⟨s, old, rfl⟩ := initial.exists_placing inside
    exact moves old ▸ both.placing_lt old
  · obtain ⟨s, old, rfl⟩ := initial.exists_placing inside
    obtain ⟨s', old', rfl⟩ := initial.exists_placing inside'
    rw [← moves old, ← moves old'] at equal
    rw [both.placing_injective old old' equal]
  · obtain ⟨s, old, rfl⟩ := both.exists_placing inside
    exact ⟨placing first s, initial.placing_lt old, (moves old).symm⟩

theorem andThen_iff (sized : second.size = size) :
    Permutation size (Graph.andThen first second) ↔ Permutation size first ∧ Permutation size second := by
  constructor
  · exact fun both => ⟨both.left_of_andThen sized, both.right_of_andThen sized⟩
  · exact fun given => given.1.andThen given.2

end Permutation

theorem renumber_of_renumbered (formed : graph.WellFormed) (permutation : Permutation graph.size order)
    (renumbered : graph.Renumbered (placing order) result) : graph.renumber order = .ok result := by
  obtain ⟨moved, done, again⟩ := renumber_permutation formed permutation
  rw [done, again.unique renumbered]

/-- Renumbering twice is renumbering once, also where it fails. -/
theorem renumber_andThen (formed : graph.WellFormed) (sized : second.size = graph.size) :
    (graph.renumber first >>= fun between => between.renumber second) = graph.renumber (andThen first second) := by
  have both : Permutation graph.size (andThen first second) ↔ _ := Permutation.andThen_iff sized
  by_cases initial : Permutation graph.size first
  · obtain ⟨between, done, renumbered⟩ := renumber_permutation formed initial
    rw [done]
    show between.renumber second = _
    by_cases final : Permutation graph.size second
    · obtain ⟨result, again, further⟩ :=
        renumber_permutation (renumbered.wellFormed formed) (renumbered.sized.symm ▸ final)
      rw [again]
      symm
      apply renumber_of_renumbered formed (both.mpr ⟨initial, final⟩)
      apply (renumbered.trans further).congr formed
      exact fun s inside => (placing_andThen (initial.sized ▸ inside)).symm
    · rw [renumber_error (renumbered.sized.symm ▸ final), renumber_error fun given => final (both.mp given).2]
  · rw [renumber_error initial, renumber_error fun given => initial (both.mp given).1]
    rfl

theorem range_permutation (size : Nat) : Permutation size (Array.range size) :=
  permutation_iff_perm.mpr (by simp)

theorem placing_range (s size : Nat) : placing (Array.range size) s = s := by
  by_cases inside : s < size <;> simp [placing, inside]

theorem renumber_range (formed : graph.WellFormed) : graph.renumber (Array.range graph.size) = .ok graph := by
  apply renumber_of_renumbered formed (range_permutation graph.size)
  exact (Renumbered.refl graph).congr formed fun s _ => (placing_range s graph.size).symm

/-- The order that takes every state back has for every place the position at which the order names it. -/
def inverse (order : Array StateId) : Array StateId := Departures.ranks order.toList

theorem andThen_inverse (permutation : Permutation size order) : andThen order (inverse order) = Array.range size := by
  have sized := permutation.sized
  refine Array.ext (by simp [andThen, sized]) fun s here there => ?_
  have inside : s < size := by simpa using there
  have placed : order[s]? = some (placing order s) := getElem?_eq_placing (sized ▸ inside)
  have bounded : ∀ place ∈ order.toList, place < order.toList.length := fun place member => by
    simpa [sized] using permutation.bounded place (by simpa using member)
  have member : placing order s ∈ order.toList := by simpa using Array.mem_of_getElem? placed
  have back : (inverse order)[placing order s]? = some s := by
    rw [inverse, Departures.ranks_getElem? permutation.distinct bounded member, permutation.idxOf_placing inside]
  have found : (andThen order (inverse order))[s]? = some s := by
    rw [andThen, Array.getElem?_map, placed, Option.map_some, placing, back, Option.getD_some]
  simpa using (Array.getElem?_eq_some_iff.mp found).2

theorem renumber_inverse (formed : graph.WellFormed) (permutation : Permutation graph.size order) :
    (graph.renumber order >>= fun between => between.renumber (inverse order)) = .ok graph := by
  have sized : (inverse order).size = graph.size := by
    rw [inverse, Departures.size_ranks, Array.length_toList, permutation.sized]
  rw [renumber_andThen formed sized, andThen_inverse permutation, renumber_range formed]

/-- The permutations of the states act on a graph. Every one of them moves each state with all that it carries and
rewrites only the targets of the arcs, and nothing else is accepted as an order. Two orders in turn are one order, the
one that names every state in its place changes nothing, and an inverse restores the graph. -/
theorem renumberings_act (formed : graph.WellFormed) :
    (∀ order : Array StateId, if order.toList.Perm (List.range graph.size)
      then ∃ result, graph.renumber order = .ok result ∧ graph.Renumbered (placing order) result
      else graph.renumber order = .error .invalidPermutation) ∧
    (∀ first second : Array StateId, second.size = graph.size →
      (graph.renumber first >>= fun between => between.renumber second) = graph.renumber (andThen first second) ∧
      ((andThen first second).toList.Perm (List.range graph.size) ↔
        first.toList.Perm (List.range graph.size) ∧ second.toList.Perm (List.range graph.size))) ∧
    graph.renumber (Array.range graph.size) = .ok graph ∧
    ∀ order : Array StateId, order.toList.Perm (List.range graph.size) →
      andThen order (inverse order) = Array.range graph.size ∧
      (graph.renumber order >>= fun between => between.renumber (inverse order)) = .ok graph := by
  refine ⟨fun order => ?_, fun first second sized => ?_, renumber_range formed, fun order given => ?_⟩
  · split
    next given => exact renumber_permutation formed (permutation_iff_perm.mpr given)
    next refused => exact renumber_error (mt permutation_iff_perm.mp refused)
  · simp only [← permutation_iff_perm]
    exact ⟨renumber_andThen formed sized, Permutation.andThen_iff sized⟩
  · have permutation := permutation_iff_perm.mpr given
    exact ⟨andThen_inverse permutation, renumber_inverse formed permutation⟩

/-- The first order turns the four states round and the second one swaps two of them. -/
theorem chains_renumberings_act : ∃ between result,
    chains.renumber #[1, 2, 3, 0] = .ok between ∧ chains.Renumbered (placing #[1, 2, 3, 0]) between ∧
    between.renumber #[0, 2, 1, 3] = .ok result ∧ chains.renumber #[2, 1, 3, 0] = .ok result ∧
    between.renumber #[3, 0, 1, 2] = .ok chains ∧ chains.renumber #[1, 2, 3, 1] = .error .invalidPermutation := by
  obtain ⟨accepted, composed, -, undone⟩ := renumberings_act chains_wellFormed
  have turned := accepted #[1, 2, 3, 0]
  have swapped := accepted #[2, 1, 3, 0]
  have refused := accepted #[1, 2, 3, 1]
  rw [if_pos (by decide)] at turned swapped
  rw [if_neg (by decide)] at refused
  obtain ⟨between, done, renumbered⟩ := turned
  obtain ⟨result, whole, -⟩ := swapped
  have parts := (composed #[1, 2, 3, 0] #[0, 2, 1, 3] rfl).1
  have joined : andThen #[1, 2, 3, 0] #[0, 2, 1, 3] = #[2, 1, 3, 0] := by simp [andThen, placing]
  have back := (undone #[1, 2, 3, 0] (by decide)).2
  rw [done] at parts back
  rw [joined, whole] at parts
  exact ⟨between, result, done, renumbered, parts, whole, back, refused⟩

end Transducer.Graph
