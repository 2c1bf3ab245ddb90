import Transducer.Proofs.Compaction

/-! Deletion after deletion. A state that is left has as its new number how many states before it are left. Such counts
compose, so deleting states and then others among those left is the same as deleting all of them at once. -/

namespace Transducer

variable {W α : Type}

theorem State.redirect_redirect (state : State W) (move next : StateId → Option StateId) :
    (state.redirect move).redirect next = state.redirect fun s => (move s).bind next := by
  simp only [redirect, Array.filterMap_filterMap]
  congr 2
  funext arc
  cases move arc.target <;> rfl

theorem State.redirect_congr {state : State W} {move move' : StateId → Option StateId}
    (same : ∀ arc ∈ state.arcs, move arc.target = move' arc.target) : state.redirect move = state.redirect move' := by
  rw [redirect, redirect, State.mk.injEq, ← Array.toList_inj, Array.toList_filterMap, Array.toList_filterMap]
  refine ⟨rfl, List.filterMap_congr fun arc present => ?_⟩
  rw [same arc (Array.mem_toList_iff.mp present)]

namespace Graph

variable {graph : Graph W} {kept first second : List Bool} {entries : List α} {entry : α} {s number : StateId}

/-- What stands at a place after a deletion is what has this place as its rank. -/
theorem pick_getElem?_iff (sized : entries.length = kept.length) :
    (pick kept entries)[number]? = some entry ↔ ∃ s, newNumber? kept s = some number ∧ entries[s]? = some entry := by
  constructor
  · intro found
    induction kept generalizing entries number with
    | nil => simp [pick] at found
    | cons stays kept ih =>
      obtain ⟨head, entries, rfl⟩ := List.exists_cons_of_length_eq_add_one sized
      have shorter : entries.length = kept.length := Nat.succ.inj sized
      simp only [newNumber?_eq_some_iff] at ih ⊢
      cases stays with
      | true =>
        cases number with
        | zero => exact ⟨0, ⟨rfl, rfl⟩, found⟩
        | succ number =>
          obtain ⟨s, ⟨stays, ranked⟩, listed⟩ := ih shorter found
          exact ⟨s + 1, ⟨stays, by rw [rank_cons_true, ranked]⟩, listed⟩
      | false =>
        obtain ⟨s, ⟨stays, ranked⟩, listed⟩ := ih shorter found
        exact ⟨s + 1, ⟨stays, by rw [rank_cons_false, ranked]⟩, listed⟩
  · intro given
    obtain ⟨s, moved, found⟩ := given
    rw [pick_getElem?_newNumber? sized moved, found]

/-- Keeping some entries and then some of those. -/
def both (first second : List Bool) : List Bool := List.zipWith and first second

@[simp] theorem both_cons (here there : Bool) (first second : List Bool) :
    both (here :: first) (there :: second) = (here && there) :: both first second := rfl

theorem pick_pick (sized : first.length = second.length) (entries : List α) :
    pick (pick first second) (pick first entries) = pick (both first second) entries := by
  induction first generalizing second entries with
  | nil => simp [pick, both]
  | cons here first ih =>
    obtain ⟨there, second, rfl⟩ := List.exists_cons_of_length_eq_add_one sized.symm
    cases entries with
    | nil => simp
    | cons entry entries =>
      have rest := ih (Nat.succ.inj sized) entries
      cases here <;> cases there <;> simp [rest]

theorem rank_pick (sized : first.length = second.length) (i : Nat) :
    rank (pick first second) (rank first i) = rank (both first second) i := by
  induction first generalizing second i with
  | nil => simp [pick, rank, both]
  | cons here first ih =>
    obtain ⟨there, second, rfl⟩ := List.exists_cons_of_length_eq_add_one sized.symm
    cases i with
    | zero => rfl
    | succ i =>
      have rest := ih (Nat.succ.inj sized) i
      cases here <;> cases there <;> simp [rest]

theorem newNumber?_pick (sized : first.length = second.length) (s : StateId) :
    (newNumber? first s).bind (newNumber? (pick first second)) = newNumber? (both first second) s := by
  have kept : (both first second)[s]? = some true ↔ first[s]? = some true ∧ second[s]? = some true := by
    simp [both, List.getElem?_zipWith_eq_some]
  apply Option.ext
  intro number
  rw [Option.bind_eq_some_iff, newNumber?_eq_some_iff, kept, ← rank_pick sized]
  constructor
  · intro given
    obtain ⟨between, moved, again⟩ := given
    obtain ⟨stays, rfl⟩ := newNumber?_eq_some_iff.mp moved
    obtain ⟨stays', ranked⟩ := newNumber?_eq_some_iff.mp again
    exact ⟨⟨stays, pick_rank sized.symm stays ▸ stays'⟩, ranked⟩
  · intro given
    obtain ⟨⟨stays, stays'⟩, ranked⟩ := given
    refine ⟨_, newNumber?_eq_some_iff.mpr ⟨stays, rfl⟩, newNumber?_eq_some_iff.mpr ⟨?_, ranked⟩⟩
    rw [pick_rank sized.symm stays, stays']

theorem compact_compact (sized : first.length = second.length) :
    (graph.compact (compactFrom 0 first).toArray).compact (compactFrom 0 (pick first second)).toArray =
      graph.compact (compactFrom 0 (both first second)).toArray := by
  rw [Graph.mk.injEq, ← Array.toList_inj]
  constructor
  case left =>
    rw [start_compact, start_compact, start_compact, Option.bind_assoc]
    exact congrArg graph.start.bind (funext (newNumber?_pick sized))
  case right =>
    rw [states_compact, states_compact, states_compact, pick_map, List.map_map, pick_pick sized]
    apply List.map_congr_left
    intro state _
    rw [Function.comp_apply, State.redirect_redirect]
    exact congrArg state.redirect (funext (newNumber?_pick sized))

/-- The number of a state once some are deleted: how many of those before it are not among them. -/
def moved? (doomed : List StateId) (s : StateId) : Option StateId :=
  if s ∈ doomed then none else some ((List.range s).countP fun t => t ∉ doomed)

section

variable {doomed other : List StateId} {size : Nat}

theorem length_staying (doomed : List StateId) (size : Nat) : (staying doomed size).length = size := by
  simp [staying]

theorem staying_getElem? (inside : s < size) : (staying doomed size)[s]? = some (decide (s ∉ doomed)) := by
  simp [staying, inside]

theorem staying_append (doomed other : List StateId) (size : Nat) :
    staying (doomed ++ other) size = both (staying doomed size) (staying other size) := by
  rw [both, staying, staying, staying, List.zipWith_map, List.zipWith_self]
  apply List.map_congr_left
  intro s _
  simp

theorem newNumber?_staying (inside : s < size) : newNumber? (staying doomed size) s = moved? doomed s := by
  have ranked : rank (staying doomed size) s = (List.range s).countP fun t => t ∉ doomed := by
    rw [rank, staying, ← List.map_take, List.take_range, Nat.min_eq_left (Nat.le_of_lt inside), List.count_eq_countP,
      List.countP_map]
    apply List.countP_congr
    intro t _
    simp
  apply Option.ext
  intro number
  rw [newNumber?_eq_some_iff, staying_getElem? inside, ranked, moved?]
  split <;> simp [*]

/-- The states that are left, in their order. -/
def remaining (doomed : List StateId) (size : Nat) : List StateId := (List.range size).filter fun s => s ∉ doomed

theorem pick_staying (f : StateId → α) :
    pick (staying doomed size) ((List.range size).map f) = (remaining doomed size).map f := by
  rw [pick_map, staying, pick_eq_filter, remaining]

theorem count_staying (doomed : List StateId) (size : Nat) :
    (staying doomed size).count true = (remaining doomed size).length := by
  have sized : ((List.range size).map id).length = (staying doomed size).length := by simp [length_staying]
  rw [← length_pick sized, pick_staying, List.length_map]

theorem remaining_getElem?_iff :
    (remaining doomed size)[number]? = some s ↔ s < size ∧ moved? doomed s = some number := by
  have sized : (List.range size).length = (staying doomed size).length := by simp [length_staying]
  rw [remaining, ← pick_eq_filter, ← staying, pick_getElem?_iff sized]
  constructor
  · intro given
    obtain ⟨t, moved, listed⟩ := given
    obtain ⟨inside, rfl⟩ : t < size ∧ t = s := by simpa [List.getElem?_eq_some_iff] using listed
    exact ⟨inside, newNumber?_staying inside ▸ moved⟩
  · intro given
    obtain ⟨inside, moved⟩ := given
    exact ⟨s, (newNumber?_staying inside).trans moved, by simp [inside]⟩

/-- A new number is among those of other states just if its own state is among them. -/
theorem mem_moved_iff (live : ∀ s ∈ other, s < size) (stands : (remaining doomed size)[number]? = some s) :
    number ∈ other.filterMap (moved? doomed) ↔ s ∈ other := by
  rw [List.mem_filterMap]
  constructor
  · intro given
    obtain ⟨t, present, moved⟩ := given
    have same := (remaining_getElem?_iff.mpr ⟨live t present, moved⟩).symm.trans stands
    exact Option.some.inj same ▸ present
  · exact fun present => ⟨s, present, (remaining_getElem?_iff.mp stands).2⟩

/-- Which of the states that are left stay, when others among them are deleted under their new numbers. -/
theorem staying_moved (live : ∀ s ∈ other, s < size) :
    staying (other.filterMap (moved? doomed)) (remaining doomed size).length =
      pick (staying doomed size) (staying other size) := by
  have renamed : pick (staying doomed size) (staying other size) =
      (remaining doomed size).map fun s => decide (s ∉ other) := pick_staying _
  rw [renamed]
  refine List.ext_getElem (by simp [length_staying]) fun number first second => ?_
  have inside : number < (remaining doomed size).length := by simpa using second
  simp only [staying, List.getElem_map, List.getElem_range, mem_moved_iff live (List.getElem?_eq_getElem inside)]

/-- The graph in which only the other states are left. -/
def without (graph : Graph W) (doomed : List StateId) : Graph W :=
  graph.compact (compactFrom 0 (staying doomed graph.size)).toArray

theorem size_without (graph : Graph W) (doomed : List StateId) :
    (graph.without doomed).size = (remaining doomed graph.size).length :=
  (size_compact (length_staying doomed graph.size)).trans (count_staying doomed graph.size)

theorem start_without (formed : graph.WellFormed) (doomed : List StateId) :
    (graph.without doomed).start = graph.start.bind (moved? doomed) := by
  rw [without, start_compact]
  cases start : graph.start with
  | none => rfl
  | some s => exact newNumber?_staying (formed.start s start)

theorem redirect_staying (formed : graph.WellFormed) (doomed : List StateId) {state : State W}
    (listed : graph.states[s]? = some state) :
    state.redirect (newNumber? (staying doomed graph.size)) = state.redirect (moved? doomed) :=
  State.redirect_congr fun arc present =>
    newNumber?_staying (formed.targets state (Array.mem_of_getElem? listed) arc present)

theorem states_without (formed : graph.WellFormed) (doomed : List StateId) (number : StateId) (state : State W) :
    (graph.without doomed).states[number]? = some state ↔ ∃ s original, moved? doomed s = some number ∧
      graph.states[s]? = some original ∧ original.redirect (moved? doomed) = state := by
  have sized : graph.states.toList.length = (staying doomed graph.size).length := by simp [length_staying, Graph.size]
  rw [without, ← Array.getElem?_toList, states_compact, List.getElem?_map, Option.map_eq_some_iff]
  constructor
  · intro given
    obtain ⟨original, placed, redirected⟩ := given
    obtain ⟨s, moved, listed⟩ := (pick_getElem?_iff sized).mp placed
    rw [Array.getElem?_toList] at listed
    rw [redirect_staying formed doomed listed] at redirected
    exact ⟨s, original, newNumber?_staying (Array.getElem?_eq_some_iff.mp listed).1 ▸ moved, listed, redirected⟩
  · intro given
    obtain ⟨s, original, moved, listed, redirected⟩ := given
    have placed : newNumber? (staying doomed graph.size) s = some number :=
      (newNumber?_staying (Array.getElem?_eq_some_iff.mp listed).1).trans moved
    refine ⟨original, (pick_getElem?_iff sized).mpr ⟨s, placed, Array.getElem?_toList ▸ listed⟩, ?_⟩
    rw [redirect_staying formed doomed listed, redirected]

theorem without_without (doomed : List StateId) (live : ∀ s ∈ other, s < graph.size) :
    (graph.without doomed).without (other.filterMap (moved? doomed)) = graph.without (doomed ++ other) := by
  rw [without, size_without, staying_moved live, without, compact_compact (by simp [length_staying]), ← staying_append,
    without]

theorem moved_live (doomed : List StateId) (live : ∀ s ∈ other, s < graph.size) :
    ∀ number ∈ other.filterMap (moved? doomed), number < (graph.without doomed).size := by
  intro number present
  obtain ⟨s, named, moved⟩ := List.mem_filterMap.mp present
  rw [size_without]
  exact (List.getElem?_eq_some_iff.mp (remaining_getElem?_iff.mpr ⟨live s named, moved⟩)).1

end

/-- Deleting states gives every state that is left, with its start and arcs, the number of such states before it.
Neither the order nor the repetition of the names makes a difference, and to delete others by their new numbers
afterwards is to delete all together. -/
theorem deletions_compose (formed : graph.WellFormed) {doomed : List StateId} (live : ∀ s ∈ doomed, s < graph.size) :
    ∃ between, graph.deleteStates doomed = .ok between ∧
      between.start = graph.start.bind (moved? doomed) ∧
      (∀ number state, between.states[number]? = some state ↔ ∃ s original, moved? doomed s = some number ∧
        graph.states[s]? = some original ∧ original.redirect (moved? doomed) = state) ∧
      (∀ same : List StateId, (∀ s, s ∈ same ↔ s ∈ doomed) → graph.deleteStates same = .ok between) ∧
      ∀ other : List StateId, (∀ s ∈ other, s < graph.size) → ∃ result,
        between.deleteStates (other.filterMap (moved? doomed)) = .ok result ∧
        graph.deleteStates (doomed ++ other) = .ok result := by
  refine ⟨graph.without doomed, deleteStates_of_live live, start_without formed doomed, states_without formed doomed,
    ?_, ?_⟩
  · intro same equal
    have named : staying same graph.size = staying doomed graph.size := by simp [staying, equal]
    rw [deleteStates_of_live fun s present => live s ((equal s).mp present), named, without]
  · intro other live'
    have together : ∀ s ∈ doomed ++ other, s < graph.size := List.forall_mem_append.mpr ⟨live, live'⟩
    refine ⟨graph.without (doomed ++ other), ?_, deleteStates_of_live together⟩
    rw [← without_without doomed live']
    exact deleteStates_of_live (moved_live doomed live')

/-- Four states in a ring, with an arc back from the last one, where the search begins. -/
def ring : Graph Unit where
  start := some 3
  states := #[{ arcs := #[⟨1, 1, (), 1⟩] }, { arcs := #[⟨2, 2, (), 2⟩] }, { arcs := #[⟨3, 3, (), 3⟩] },
    { final := some (), arcs := #[⟨4, 4, (), 0⟩, ⟨5, 5, (), 2⟩] }]

/-- What is left of the ring without its first two states. -/
def arch : Graph Unit where
  start := some 1
  states := #[{ arcs := #[⟨3, 3, (), 1⟩] }, { final := some (), arcs := #[⟨5, 5, (), 0⟩] }]

/-- The second state is named twice at first, and once more when it is gone. -/
theorem ring_deletions_compose : ∃ between, ring.deleteStates [1, 1] = .ok between ∧ between.start = some 2 ∧
    ring.deleteStates [1] = .ok between ∧ between.deleteStates [0] = .ok arch ∧
    ring.deleteStates ([1, 1] ++ [1, 0]) = .ok arch := by
  have formed : ring.WellFormed := ⟨by rintro s ⟨⟩; decide, by decide⟩
  have live : ∀ s ∈ [1, 1], s < ring.size := by decide
  obtain ⟨between, deleted, start, -, names, more⟩ := deletions_compose formed live
  obtain ⟨result, again, together⟩ := more [1, 0] (by decide)
  have computed : ring.deleteStates ([1, 1] ++ [1, 0]) = .ok arch := by decide +kernel
  obtain rfl : result = arch := Except.ok.inj (together.symm.trans computed)
  exact ⟨between, deleted, start, names [1] (by simp), again, computed⟩

end Graph

end Transducer
