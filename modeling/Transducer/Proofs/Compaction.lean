import Mathlib.Data.List.Basic
import Mathlib.Data.List.Nodup
import Transducer.Graph.Edit
import Transducer.Proofs.GraphPaths

/-! Deleting by position. The entries that are kept move up in their order, and the new number of a kept
entry is the place where it then stands. -/

namespace Transducer.Graph

variable {W α β : Type} {graph : Graph W}

def pick (kept : List Bool) (entries : List α) : List α :=
  (entries.zip kept).filterMap fun (entry, stays) => if stays then some entry else none

@[simp] theorem pick_nil (kept : List Bool) : pick kept ([] : List α) = [] := by
  simp [pick]

@[simp] theorem pick_cons_true (kept : List Bool) (entry : α) (entries : List α) :
    pick (true :: kept) (entry :: entries) = entry :: pick kept entries := rfl

@[simp] theorem pick_cons_false (kept : List Bool) (entry : α) (entries : List α) :
    pick (false :: kept) (entry :: entries) = pick kept entries := rfl

theorem pick_map (f : α → β) (kept : List Bool) (entries : List α) :
    pick kept (entries.map f) = (pick kept entries).map f := by
  induction entries generalizing kept with
  | nil => simp
  | cons entry entries ih =>
    rcases kept with _ | ⟨_ | _, kept⟩
    · rfl
    · simpa using ih kept
    · simpa using ih kept

theorem pick_eq_filter (keeps : α → Bool) (entries : List α) :
    pick (entries.map keeps) entries = entries.filter keeps := by
  induction entries with
  | nil => rfl
  | cons entry entries ih =>
    cases stays : keeps entry with
    | true => simp [stays, ih]
    | false => simp [stays, ih]

theorem pick_subset (kept : List Bool) (entries : List α) : pick kept entries ⊆ entries := by
  intro entry member
  obtain ⟨⟨other, stays⟩, paired, same⟩ := List.mem_filterMap.mp member
  obtain rfl : other = entry := by
    cases stays <;> simp_all
  exact (List.of_mem_zip paired).1

theorem pick_zip (kept : List Bool) (entries : List α) (others : List β) :
    pick kept (entries.zip others) = (pick kept entries).zip (pick kept others) := by
  induction entries generalizing kept others with
  | nil => simp
  | cons entry entries ih =>
    rcases others with _ | ⟨other, others⟩
    · simp
    · rcases kept with _ | ⟨_ | _, kept⟩
      · rfl
      · simpa using ih kept others
      · simpa using ih kept others

theorem length_pick {kept : List Bool} {entries : List α} (sized : entries.length = kept.length) :
    (pick kept entries).length = kept.count true := by
  induction kept generalizing entries with
  | nil => simp_all [pick]
  | cons stays kept ih =>
    obtain ⟨entry, entries, rfl⟩ := List.exists_cons_of_length_eq_add_one sized
    cases stays <;> simp [ih (Nat.succ.inj sized)]

theorem size_strike (positions : List Nat) (flags : Array Bool) : (strike positions flags).size = flags.size := by
  induction positions generalizing flags with
  | nil => rfl
  | cons position positions ih => rw [strike, List.foldl_cons, ← strike, ih, Array.size_setIfInBounds]

theorem strike_getElem? (positions : List Nat) (flags : Array Bool) {i : Nat} (inside : i < flags.size) :
    (strike positions flags)[i]? = if i ∈ positions then some false else flags[i]? := by
  induction positions generalizing flags with
  | nil => simp [strike]
  | cons position positions ih =>
    rw [strike, List.foldl_cons, ← strike, ih _ (by simpa using inside)]
    by_cases same : position = i
    · subst same; simp [inside]
    · simp [same, Ne.symm same]

theorem strike_replicate (positions : List Nat) (size : Nat) :
    (strike positions (Array.replicate size true)).toList = (List.range size).map fun i => decide (i ∉ positions) := by
  apply List.ext_getElem?
  intro i
  rw [Array.getElem?_toList, List.getElem?_map]
  by_cases inside : i < size
  · rw [strike_getElem? positions _ (by simpa using inside)]
    by_cases struck : i ∈ positions <;> simp [inside, struck]
  · rw [Array.getElem?_eq_none (by simpa [size_strike] using inside), List.getElem?_eq_none (by simpa using inside)]
    rfl

theorem length_compactFrom (next : StateId) (kept : List Bool) : (compactFrom next kept).length = kept.length := by
  induction kept generalizing next with
  | nil => rfl
  | cons stays kept ih => cases stays <;> exact congrArg Nat.succ (ih _)

theorem filterMap_compactFrom (f : α → β) (next : StateId) (kept : List Bool) (entries : List α) :
    ((entries.zip (compactFrom next kept)).filterMap fun (entry, number) => number.map fun _ => f entry) =
      (pick kept entries).map f := by
  induction kept generalizing next entries with
  | nil => simp [compactFrom, pick]
  | cons stays kept ih =>
    cases entries with
    | nil => simp [pick]
    | cons entry entries => cases stays <;> simp [compactFrom, ih]

/-- How many entries before this one are kept. -/
def rank (kept : List Bool) (i : Nat) : Nat := (kept.take i).count true

@[simp] theorem rank_cons_true (kept : List Bool) (i : Nat) : rank (true :: kept) (i + 1) = rank kept i + 1 := by
  simp [rank]

@[simp] theorem rank_cons_false (kept : List Bool) (i : Nat) : rank (false :: kept) (i + 1) = rank kept i := by
  simp [rank]

theorem compactFrom_rank (next : StateId) (kept : List Bool) (i : Nat) :
    ((compactFrom next kept)[i]?).join = if kept[i]? = some true then some (next + rank kept i) else none := by
  induction kept generalizing next i with
  | nil => rfl
  | cons stays kept ih =>
    cases i with
    | zero => cases stays <;> simp [compactFrom, rank]
    | succ i => cases stays <;> simp [compactFrom, ih, Nat.add_assoc, Nat.add_comm 1]

/-- An entry that stays is found again at its rank. -/
theorem pick_rank {kept : List Bool} {entries : List α} {i : Nat} (sized : entries.length = kept.length)
    (stays : kept[i]? = some true) : (pick kept entries)[rank kept i]? = entries[i]? := by
  induction kept generalizing entries i with
  | nil => cases stays
  | cons here kept ih =>
    obtain ⟨entry, entries, rfl⟩ := List.exists_cons_of_length_eq_add_one sized
    cases i with
    | zero =>
      obtain rfl : here = true := by simpa using stays
      rfl
    | succ i => cases here <;> simpa using ih (Nat.succ.inj sized) stays

/-- The number under which an entry is found after the others are deleted. -/
def newNumber? (kept : List Bool) (i : Nat) : Option StateId := ((compactFrom 0 kept)[i]?).join

theorem newNumber?_eq_some_iff {kept : List Bool} {i : Nat} {number : StateId} :
    newNumber? kept i = some number ↔ kept[i]? = some true ∧ rank kept i = number := by
  rw [newNumber?, compactFrom_rank, Nat.zero_add]
  split <;> simp [*]

theorem newNumber?_isSome (kept : List Bool) (i : Nat) : (newNumber? kept i).isSome = (kept[i]?).getD false := by
  rw [newNumber?, compactFrom_rank]
  rcases kept[i]? with _ | _ | _ <;> rfl

theorem pick_getElem?_newNumber? {kept : List Bool} {entries : List α} {i : Nat} {number : StateId}
    (sized : entries.length = kept.length) (moved : newNumber? kept i = some number) :
    (pick kept entries)[number]? = entries[i]? := by
  obtain ⟨stays, rfl⟩ := newNumber?_eq_some_iff.mp moved
  exact pick_rank sized stays

/-- What is read under a new number is what was read under the old one, unless that was deleted. -/
theorem filter_getElem?_newNumber? (keeps : α → Bool) (entries : List α) (i : Nat) :
    (newNumber? (entries.map keeps) i).map (fun number => (entries.filter keeps)[number]?) =
      ((entries[i]?).filter keeps).map some := by
  have stays := newNumber?_isSome (entries.map keeps) i
  rw [List.getElem?_map] at stays
  cases moved : newNumber? (entries.map keeps) i with
  | none =>
    cases found : entries[i]? with
    | none => rfl
    | some entry =>
      have struck : keeps entry = false := by simpa [moved, found] using stays
      rw [Option.filter_some_neg struck]
      rfl
  | some number =>
    have same : (pick (entries.map keeps) entries)[number]? = entries[i]? :=
      pick_getElem?_newNumber? (by simp) moved
    cases found : entries[i]? with
    | none => simp [moved, found] at stays
    | some entry =>
      have kept : keeps entry = true := by simpa [moved, found] using stays
      rw [Option.filter_some_pos kept, ← pick_eq_filter, Option.map_some, same, found]
      rfl

/-- Which of so many entries stay when some positions are deleted. -/
def staying (doomed : List Nat) (size : Nat) : List Bool := (List.range size).map fun i => decide (i ∉ doomed)

theorem start_compact (graph : Graph W) (kept : List Bool) :
    (graph.compact (compactFrom 0 kept).toArray).start = graph.start.bind (newNumber? kept) := by
  simp only [compact, List.getElem?_toArray]
  rfl

theorem states_compact (graph : Graph W) (kept : List Bool) :
    (graph.compact (compactFrom 0 kept).toArray).states.toList =
      (pick kept graph.states.toList).map (State.redirect · (newNumber? kept)) := by
  simp only [compact, Array.toList_filterMap, Array.toList_zip, List.getElem?_toArray]
  exact filterMap_compactFrom (State.redirect · (newNumber? kept)) 0 kept graph.states.toList

theorem size_compact {kept : List Bool} (sized : kept.length = graph.size) :
    (graph.compact (compactFrom 0 kept).toArray).size = kept.count true := by
  rw [size, ← Array.length_toList, states_compact, List.length_map, length_pick (by simp [sized, size])]

/-- A state that is left stands where whatever else was kept of it stands. -/
theorem compact_origin {kept : List Bool} {entries : List α} {entry : α} {i : Nat} {state : State W}
    (listed : (pick kept entries)[i]? = some entry)
    (found : (graph.compact (compactFrom 0 kept).toArray).states[i]? = some state) :
    ∃ (s : StateId) (original : State W), entries[s]? = some entry ∧ graph.states[s]? = some original ∧
      state = original.redirect (newNumber? kept) := by
  rw [← Array.getElem?_toList, states_compact, List.getElem?_map] at found
  obtain ⟨original, stays, rfl⟩ := Option.map_eq_some_iff.mp found
  have both : (pick kept (entries.zip graph.states.toList))[i]? = some (entry, original) := by
    rw [pick_zip, List.getElem?_zip_eq_some]
    exact ⟨listed, stays⟩
  obtain ⟨s, paired⟩ := List.mem_iff_getElem?.mp (pick_subset _ _ (List.mem_of_getElem? both))
  obtain ⟨first, second⟩ := List.getElem?_zip_eq_some.mp paired
  exact ⟨s, original, first, Array.getElem?_toList ▸ second, rfl⟩

theorem compact_none {kept : List Bool} (sized : kept.length = graph.size) (gone : true ∉ kept) :
    graph.compact (compactFrom 0 kept).toArray = empty := by
  have start : (graph.compact (compactFrom 0 kept).toArray).start = none := by
    rw [start_compact, Option.bind_eq_none_iff]
    intro s _
    rw [← Option.not_isSome_iff_eq_none, newNumber?_isSome]
    cases flag : kept[s]? with
    | none => simp
    | some stays =>
      have struck : stays ≠ true := fun same => gone (same ▸ List.mem_of_getElem? flag)
      simpa using struck
  have states : (graph.compact (compactFrom 0 kept).toArray).states = #[] :=
    Array.eq_empty_of_size_eq_zero ((size_compact sized).trans (List.count_eq_zero.mpr gone))
  show Graph.mk _ _ = Graph.mk none #[]
  congr

theorem check_of_live {s : StateId} (live : s < graph.size) : graph.check s = .ok () := if_pos live

theorem check_of_lost {s : StateId} (lost : graph.size ≤ s) : graph.check s = .error (.invalidState s) :=
  if_neg (Nat.not_lt.mpr lost)

/-- The first number that is no state is the one reported. -/
theorem forM_check (graph : Graph W) (named : List StateId) :
    named.forM graph.check = match named.find? fun s => decide (graph.size ≤ s) with
      | some s => .error (.invalidState s)
      | none => .ok () := by
  induction named with
  | nil => rfl
  | cons s named ih =>
    show (graph.check s >>= fun _ => named.forM graph.check) = _
    by_cases inside : s < graph.size
    · rw [check_of_live inside, List.find?_cons_of_neg (by simpa using inside), ← ih]
      rfl
    · rw [check_of_lost (Nat.le_of_not_lt inside), List.find?_cons_of_pos (by simpa using inside)]
      rfl

theorem deleteStates_of_live {doomed : List StateId} (live : ∀ s ∈ doomed, s < graph.size) :
    graph.deleteStates doomed = .ok (graph.compact (compactFrom 0 (staying doomed graph.size)).toArray) := by
  have none : doomed.find? (fun s => decide (graph.size ≤ s)) = none :=
    List.find?_eq_none.mpr fun s member => by simpa using live s member
  rw [deleteStates, forM_check, none, staying, ← strike_replicate]
  rfl

theorem deleteStates_of_lost {doomed : List StateId} {s : StateId}
    (first : doomed.find? (fun s => decide (graph.size ≤ s)) = some s) :
    graph.deleteStates doomed = .error (.invalidState s) := by
  rw [deleteStates, forM_check, first]
  rfl

theorem deleteStates_of_not_live {doomed : List StateId} (lost : ¬ ∀ s ∈ doomed, s < graph.size) :
    ∃ error, graph.deleteStates doomed = .error error := by
  cases found : doomed.find? fun s => decide (graph.size ≤ s) with
  | none => exact absurd (fun s member => by simpa using List.find?_eq_none.mp found s member) lost
  | some s => exact ⟨_, deleteStates_of_lost found⟩

theorem arcs_of_getElem? {s : StateId} {state : State W} (found : graph.states[s]? = some state) :
    graph.arcs s = .ok state.arcs := by
  rw [arcs, Graph.state, found]
  rfl

theorem modify_congr {s : StateId} {state : State W} {change change' : State W → State W}
    (found : graph.states[s]? = some state) (same : change state = change' state) :
    graph.modify s change = graph.modify s change' := by
  unfold modify
  congr 1
  apply Array.ext_getElem?
  intro i
  rw [Array.getElem?_modify, Array.getElem?_modify]
  by_cases here : s = i
  · subst here; simp [found, same]
  · simp [here]

def dropAt (positions : List Nat) (entries : List α) : List α := pick (staying positions entries.length) entries

theorem dropAt_map (f : α → β) (positions : List Nat) (entries : List α) :
    dropAt positions (entries.map f) = (dropAt positions entries).map f := by
  rw [dropAt, pick_map, List.length_map, dropAt]

/-- Deleting by position is keeping what is not named, where no two entries have the same name. -/
theorem dropAt_eq_filter {positions : List Nat} {entries : List (Nat × α)} (distinct : (entries.map Prod.fst).Nodup)
    (live : ∀ position ∈ positions, position < entries.length) :
    dropAt positions entries = entries.filter fun entry =>
      entry.1 ∉ (positions.filterMap fun position => entries[position]?).map Prod.fst := by
  rw [← pick_eq_filter, dropAt]
  congr 1
  refine List.ext_getElem (by simp [staying]) fun i first second => ?_
  have inside : i < entries.length := by simpa using second
  simp only [staying, List.getElem_map, List.getElem_range, decide_eq_decide, not_iff_not, List.mem_map,
    List.mem_filterMap]
  constructor
  · intro named
    exact ⟨entries[i], ⟨i, named, List.getElem?_eq_getElem inside⟩, rfl⟩
  · intro given
    obtain ⟨entry, ⟨position, named, found⟩, same⟩ := given
    have bound := live position named
    have found : entries[position] = entry := (List.getElem?_eq_some_iff.mp found).2
    have first : position < (entries.map Prod.fst).length := by simpa using bound
    have second : i < (entries.map Prod.fst).length := by simpa using inside
    have equal : (entries.map Prod.fst)[position] = (entries.map Prod.fst)[i] := by
      simpa [found] using same
    obtain rfl : position = i := distinct.getElem_inj_iff.mp equal
    exact named

/-- Deleting arcs by position keeps the others in their order. -/
theorem deleteArcs_of_live {s : StateId} {state : State W} {positions : List Nat}
    (found : graph.states[s]? = some state) (live : ∀ position ∈ positions, position < state.arcs.size) :
    graph.deleteArcs s positions =
      .ok (graph.modify s fun state => { state with arcs := (dropAt positions state.arcs.toList).toArray }) := by
  have inside : s < graph.size := (Array.getElem?_eq_some_iff.mp found).1
  have none : positions.find? (fun position => decide (state.arcs.size ≤ position)) = none :=
    List.find?_eq_none.mpr fun position member => by simpa using live position member
  have remaining : (state.arcs.zip (strike positions (Array.replicate state.arcs.size true))).filterMap
      (fun pair => if pair.2 then some pair.1 else Option.none) = (dropAt positions state.arcs.toList).toArray := by
    rw [← Array.toList_inj, Array.toList_filterMap, Array.toList_zip, strike_replicate]
    rfl
  rw [deleteArcs, arcs_of_getElem? found]
  simp only [bind, Except.bind, none, update, inside, if_true, remaining]
  exact congrArg Except.ok (modify_congr found rfl)

theorem deleteArcs_of_outside {s : StateId} {state : State W} {positions : List Nat} {position : Nat}
    (found : graph.states[s]? = some state)
    (first : positions.find? (fun position => decide (state.arcs.size ≤ position)) = some position) :
    graph.deleteArcs s positions = .error (.invalidArc s position) := by
  rw [deleteArcs, arcs_of_getElem? found]
  simp only [bind, Except.bind, first]

theorem deleteArcs_of_not_live {s : StateId} {state : State W} {positions : List Nat}
    (found : graph.states[s]? = some state) (lost : ¬ ∀ position ∈ positions, position < state.arcs.size) :
    ∃ error, graph.deleteArcs s positions = .error error := by
  cases outside : positions.find? fun position => decide (state.arcs.size ≤ position) with
  | none => exact absurd (fun position member => by simpa using List.find?_eq_none.mp outside position member) lost
  | some position => exact ⟨_, deleteArcs_of_outside found outside⟩

theorem deleteArcs_of_absent {s : StateId} {positions : List Nat} (absent : graph.states[s]? = none) :
    graph.deleteArcs s positions = .error (.invalidState s) := by
  rw [deleteArcs, arcs, Graph.state, absent]
  rfl

end Transducer.Graph
