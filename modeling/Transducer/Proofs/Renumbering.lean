import Mathlib.Data.List.Nodup
import Mathlib.Data.List.Perm.Subperm
import Mathlib.Data.Set.Function
import Mathlib.Order.Interval.Set.Defs
import Transducer.Graph.Edit
import Transducer.Proofs.GraphPaths

/-! Renumbering the states of a graph. An order that gives each state its own new number moves every
state there with its final weight and its arcs, and only the targets of the arcs are rewritten. -/

namespace Transducer

def State.relocate {W : Type} (state : State W) (place : StateId → StateId) : State W :=
  { state with arcs := state.arcs.map fun arc => { arc with target := place arc.target } }

namespace Graph

variable {W : Type} {graph result : Graph W} {order : Array StateId} {size : Nat}

/-- The result is the graph with each state moved to its place. -/
structure Renumbered (graph : Graph W) (place : StateId → StateId) (result : Graph W) : Prop where
  sized : result.size = graph.size
  bijective : Set.BijOn place (Set.Iio graph.size) (Set.Iio graph.size)
  start : result.start = graph.start.map place
  states : ∀ s state, graph.states[s]? = some state → result.states[place s]? = some (state.relocate place)

/-- The order gives each of so many states a number of its own. -/
structure Permutation (size : Nat) (order : Array StateId) : Prop where
  sized : order.size = size
  distinct : order.toList.Nodup
  bounded : ∀ place ∈ order, place < size

def placing (order : Array StateId) (s : StateId) : StateId := (order[s]?).getD s

theorem getElem?_eq_placing {s : StateId} (inside : s < order.size) : order[s]? = some (placing order s) := by
  simp [placing, inside]

theorem isDistinct_iff (seen : Array Bool) (places : List StateId) :
    isDistinct seen places = true ↔ places.Nodup ∧ ∀ place ∈ places, seen[place]? = some false := by
  induction places generalizing seen with
  | nil => simp [isDistinct]
  | cons first rest ih =>
    unfold isDistinct
    split
    next fresh =>
      have bound := (Array.getElem?_eq_some_iff.mp fresh).1
      have marked (place : StateId) : (seen.setIfInBounds first true)[place]? = some false ↔
          place ≠ first ∧ seen[place]? = some false := by
        by_cases same : place = first
        · subst same; simp [bound]
        · simp [same, Ne.symm same]
      simp only [ih, marked, List.nodup_cons, List.mem_cons, forall_eq_or_imp, fresh, true_and]
      constructor
      · intro given
        obtain ⟨distinct, others⟩ := given
        exact ⟨⟨fun member => (others first member).1 rfl, distinct⟩, fun place member => (others place member).2⟩
      · intro given
        obtain ⟨⟨absent, distinct⟩, others⟩ := given
        exact ⟨distinct, fun place member => ⟨fun same => absent (same ▸ member), others place member⟩⟩
    next taken =>
      simp only [Bool.false_eq_true, false_iff, not_and]
      exact fun _ fresh => taken (fresh first List.mem_cons_self)

theorem permutation_iff : Permutation size order ↔
    order.size = size ∧ isDistinct (Array.replicate size false) order.toList = true := by
  have unmarked (place : StateId) : (Array.replicate size false)[place]? = some false ↔ place < size := by
    simp [Array.getElem?_replicate]
  simp only [isDistinct_iff, unmarked, Array.mem_toList_iff]
  exact ⟨fun ⟨sized, distinct, bounded⟩ => ⟨sized, distinct, bounded⟩,
    fun ⟨sized, distinct, bounded⟩ => ⟨sized, distinct, bounded⟩⟩

namespace Permutation

theorem of_injective (number : StateId → StateId) (sized : order.size = size)
    (numbered : ∀ s < size, order[s]? = some (number s)) (bounded : ∀ s < size, number s < size)
    (injective : ∀ s < size, ∀ t < size, number s = number t → s = t) : Permutation size order := by
  have listed : order.toList = (List.range size).map number := by
    refine List.ext_getElem (by simp [sized]) fun s first second => ?_
    have inside : s < size := by simpa using second
    simpa using (Array.getElem?_eq_some_iff.mp (numbered s inside)).2
  refine ⟨sized, ?_, fun place member => ?_⟩
  · rw [listed]
    exact List.nodup_range.map_on fun s first t second same =>
      injective s (List.mem_range.mp first) t (List.mem_range.mp second) same
  · have member : place ∈ (List.range size).map number := listed ▸ Array.mem_toList_iff.mpr member
    obtain ⟨s, inside, rfl⟩ := List.mem_map.mp member
    exact bounded s (List.mem_range.mp inside)

theorem perm_range (permutation : Permutation size order) : order.toList.Perm (List.range size) := by
  have inside : order.toList ⊆ List.range size := fun place member =>
    List.mem_range.mpr (permutation.bounded place (by simpa using member))
  exact (List.subperm_of_subset permutation.distinct inside).perm_of_length_le (by simp [permutation.sized])

theorem placing_lt (permutation : Permutation size order) {s : StateId} (inside : s < size) :
    placing order s < size :=
  permutation.bounded _ (Array.mem_of_getElem? (getElem?_eq_placing (permutation.sized ▸ inside)))

theorem placing_injective (permutation : Permutation size order) {s t : StateId} (first : s < size)
    (second : t < size) (same : placing order s = placing order t) : s = t := by
  have first : s < order.toList.length := by simpa [permutation.sized] using first
  have second : t < order.toList.length := by simpa [permutation.sized] using second
  have equal : order.toList[s] = order.toList[t] := by
    simpa [placing, Array.length_toList.symm ▸ first, Array.length_toList.symm ▸ second] using same
  exact (permutation.distinct.getElem_inj_iff).mp equal

theorem exists_placing (permutation : Permutation size order) {place : StateId} (inside : place < size) :
    ∃ s < size, placing order s = place := by
  have member : place ∈ order.toList := permutation.perm_range.mem_iff.mpr (List.mem_range.mpr inside)
  obtain ⟨s, bound, same⟩ := List.getElem_of_mem member
  have bound : s < order.size := by simpa using bound
  exact ⟨s, permutation.sized ▸ bound, by simpa [placing, bound] using same⟩

theorem idxOf_placing (permutation : Permutation size order) {s : StateId} (inside : s < size) :
    order.toList.idxOf (placing order s) = s := by
  have bound : s < order.toList.length := by simpa [permutation.sized] using inside
  have placed : placing order s = order.toList[s] := by
    simp [placing, permutation.sized, inside]
  rw [placed, permutation.distinct.idxOf_getElem]

theorem bijective (permutation : Permutation size order) :
    Set.BijOn (placing order) (Set.Iio size) (Set.Iio size) := by
  refine ⟨fun s inside => permutation.placing_lt inside, ?_, fun place inside => ?_⟩
  · exact fun s first t second same => permutation.placing_injective first second same
  · exact permutation.exists_placing inside

end Permutation

theorem permutation_iff_perm : Permutation size order ↔ order.toList.Perm (List.range size) := by
  refine ⟨Permutation.perm_range, fun perm => ⟨by simpa using perm.length_eq, ?_, fun place member => ?_⟩⟩
  · exact perm.nodup_iff.mpr List.nodup_range
  · exact List.mem_range.mp (perm.mem_iff.mp (Array.mem_toList_iff.mpr member))

theorem foldl_setIfInBounds_size {α β : Type} (items : List β) (place : β → Nat) (value : β → α)
    (initial : Array α) :
    (items.foldl (fun placed item => placed.setIfInBounds (place item) (value item)) initial).size = initial.size := by
  induction items generalizing initial with
  | nil => rfl
  | cons item items ih => rw [List.foldl_cons, ih, Array.size_setIfInBounds]

private theorem foldl_setIfInBounds_other {α β : Type} (items : List β) (place : β → Nat) (value : β → α)
    (initial : Array α) {position : Nat} (free : position ∉ items.map place) :
    (items.foldl (fun placed item => placed.setIfInBounds (place item) (value item)) initial)[position]? =
      initial[position]? := by
  induction items generalizing initial with
  | nil => rfl
  | cons item items ih =>
    rw [List.map_cons, List.mem_cons, not_or] at free
    rw [List.foldl_cons, ih _ free.2, Array.getElem?_setIfInBounds_ne (Ne.symm free.1)]

/-- Items that are put in different places do not overwrite each other. -/
theorem foldl_setIfInBounds_getElem? {α β : Type} {items : List β} {place : β → Nat} {value : β → α}
    {initial : Array α} (distinct : (items.map place).Nodup) {item : β} (member : item ∈ items)
    (inside : place item < initial.size) :
    (items.foldl (fun placed item => placed.setIfInBounds (place item) (value item)) initial)[place item]? =
      some (value item) := by
  induction items generalizing initial with
  | nil => cases member
  | cons first items ih =>
    obtain ⟨free, distinct⟩ := List.nodup_cons.mp distinct
    rw [List.foldl_cons]
    rcases List.mem_cons.mp member with rfl | later
    · rw [foldl_setIfInBounds_other _ _ _ _ free]
      simp [inside]
    · exact ih distinct later (by simpa using inside)

theorem size_arrange (states : Array (State W)) (order : Array StateId) :
    (arrange states order).size = states.size := by
  simp only [arrange, ← Array.foldl_toList, foldl_setIfInBounds_size, Array.size_replicate]

theorem arrange_getElem? {states : Array (State W)} (permutation : Permutation states.size order) {s : StateId}
    {state : State W} (found : states[s]? = some state) : (arrange states order)[placing order s]? = some state := by
  have inside := (Array.getElem?_eq_some_iff.mp found).1
  have placed := getElem?_eq_placing (permutation.sized ▸ inside : s < order.size)
  have pairs : (states.zip order).toList.map Prod.snd = order.toList := by
    rw [Array.toList_zip, List.map_snd_zip]
    simp [permutation.sized]
  have distinct : ((states.zip order).toList.map Prod.snd).Nodup := pairs ▸ permutation.distinct
  have member : (state, placing order s) ∈ (states.zip order).toList := by
    apply List.mem_of_getElem? (i := s)
    simp [Array.toList_zip, List.getElem?_zip_eq_some, found, placed]
  rw [arrange, ← Array.foldl_toList]
  exact foldl_setIfInBounds_getElem? distinct member (by simpa using permutation.placing_lt inside)

/-- Where all arcs lead to states, moving them drops none. -/
theorem redirect_eq_relocate {state : State W} (targets : ∀ arc ∈ state.arcs, arc.target < order.size) :
    state.redirect (fun s => order[s]?) = state.relocate (placing order) := by
  unfold State.redirect State.relocate
  congr 1
  rw [← Array.toList_inj, Array.toList_filterMap, Array.toList_map]
  apply List.filterMap_eq_map_iff_forall_eq_some.mpr
  intro arc member
  have placed := getElem?_eq_placing (targets arc (by simpa using member))
  simp only [placed, Option.map_some]

theorem renumber_permutation (formed : graph.WellFormed) (permutation : Permutation graph.size order) :
    ∃ result, graph.renumber order = .ok result ∧ graph.Renumbered (placing order) result := by
  have sized := permutation.sized
  refine ⟨_, if_pos (permutation_iff.mp permutation), ?_⟩
  constructor
  case sized => simp [Graph.size, size_arrange]
  case bijective => exact permutation.bijective
  case start =>
    cases start : graph.start with
    | none => rfl
    | some s => exact getElem?_eq_placing (sized ▸ formed.start s start)
  case states =>
    intro s state found
    have targets := formed.targets state (Array.mem_of_getElem? found)
    rw [← redirect_eq_relocate (sized ▸ targets)]
    exact arrange_getElem? (by simpa [Graph.size] using permutation) (by simp [found])

theorem renumber_error (refused : ¬ Permutation graph.size order) :
    graph.renumber order = .error .invalidPermutation :=
  if_neg (mt permutation_iff.mpr refused)

theorem State.relocate_id (state : State W) : state.relocate id = state := by
  simp [State.relocate]

theorem Renumbered.refl (graph : Graph W) : graph.Renumbered id graph where
  sized := rfl
  bijective := Set.bijOn_id _
  start := by simp
  states s state found := by rwa [State.relocate_id]

theorem Renumbered.origin {place : StateId → StateId} (renumbered : graph.Renumbered place result)
    {target : StateId} {moved : State W} (found : result.states[target]? = some moved) :
    ∃ s state, graph.states[s]? = some state ∧ place s = target ∧ moved = state.relocate place := by
  have inside : target < graph.size := renumbered.sized ▸ (Array.getElem?_eq_some_iff.mp found).1
  obtain ⟨s, old, rfl⟩ := renumbered.bijective.surjOn inside
  obtain ⟨state, before⟩ := exists_state old
  exact ⟨s, state, before, rfl, Option.some.inj (found.symm.trans (renumbered.states s state before))⟩

theorem Renumbered.wellFormed {place : StateId → StateId} (renumbered : graph.Renumbered place result)
    (formed : graph.WellFormed) : result.WellFormed := by
  constructor
  case start =>
    intro s start
    rw [renumbered.start] at start
    obtain ⟨before, found, rfl⟩ := Option.map_eq_some_iff.mp start
    exact renumbered.sized ▸ renumbered.bijective.mapsTo (formed.start before found)
  case targets =>
    intro moved member arc inside
    obtain ⟨target, found⟩ := Array.getElem?_of_mem member
    obtain ⟨s, state, before, -, rfl⟩ := renumbered.origin found
    obtain ⟨old, kept, rfl⟩ := Array.mem_map.mp inside
    exact renumbered.sized ▸ renumbered.bijective.mapsTo (formed.targets state (Array.mem_of_getElem? before) old kept)

/-- An arc of the result is the arc that stood between the old numbers. -/
theorem Renumbered.edge {place : StateId → StateId} (renumbered : graph.Renumbered place result)
    {source target : StateId} (edge : result.Edge source target) :
    ∃ s t, graph.Edge s t ∧ place s = source ∧ place t = target := by
  obtain ⟨moved, found, arc, member, rfl⟩ := edge_iff.mp edge
  obtain ⟨s, state, before, rfl, rfl⟩ := renumbered.origin found
  obtain ⟨old, kept, rfl⟩ := Array.mem_map.mp member
  exact ⟨s, old.target, edge_iff.mpr ⟨state, before, old, kept, rfl⟩, rfl, rfl⟩

end Graph

end Transducer
