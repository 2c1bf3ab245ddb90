import Transducer.Proofs.Obtaining

/-! What a call is refused for, and what is left of the graph then. A call that changes the graph in place writes
piece by piece, so nothing is left half done only because every check comes before the first write. -/

namespace Transducer

variable {W α β : Type} {graph : Graph W}

/-- The states that a call names, in the order in which they are checked. -/
def Call.states : Call W → List StateId
  | addArc source arc => [arc.target, source]
  | setStart s | setFinal s _ | deleteFinal s | deleteArcs s _ => [s]
  | deleteStates doomed => doomed
  | addState | deleteAllStates | renumber _ | sort => []

namespace Graph

/-- The first thing that a call names and the graph does not have. -/
inductive Fault (graph : Graph W) : Call W → GraphError → Prop
  | state {call : Call W} {before after : List StateId} {s : StateId} (named : call.states = before ++ s :: after)
      (live : ∀ t ∈ before, t < graph.size) (lost : graph.size ≤ s) : Fault graph call (.invalidState s)
  | arc {s : StateId} {state : State W} {before after : List Nat} {position : Nat}
      (found : graph.states[s]? = some state) (inside : ∀ other ∈ before, other < state.arcs.size)
      (outside : state.arcs.size ≤ position) :
      Fault graph (.deleteArcs s (some (before ++ position :: after))) (.invalidArc s position)
  | order {order : Array StateId} (refused : ¬ order.toList.Perm (List.range graph.size)) :
      Fault graph (.renumber order) .invalidPermutation

theorem find?_not_below {numbers : List Nat} {bound number : Nat} :
    numbers.find? (fun other => decide (bound ≤ other)) = some number ↔
      bound ≤ number ∧ ∃ before after, numbers = before ++ number :: after ∧ ∀ other ∈ before, other < bound := by
  simp [List.find?_eq_some_iff_append]

theorem update_of_live {s : StateId} {change : State W → State W} (live : s < graph.size) :
    graph.update s change = .ok (graph.modify s change) :=
  if_pos live

theorem update_of_lost {s : StateId} {change : State W → State W} (lost : graph.size ≤ s) :
    graph.update s change = .error (.invalidState s) :=
  if_neg (Nat.not_lt.mpr lost)

theorem eq_of_singleton_eq {s t : StateId} {before after : List StateId} (same : [t] = before ++ s :: after) :
    s = t := by
  rcases List.singleton_eq_append_iff.mp same with ⟨-, rest⟩ | ⟨-, none⟩
  · exact (List.cons.inj rest).1
  · cases none

/-- No call gets past its checks with a state that the graph does not have. -/
theorem call_of_lost {call : Call W} {before after : List StateId} {s : StateId}
    (named : call.states = before ++ s :: after) (live : ∀ t ∈ before, t < graph.size) (lost : graph.size ≤ s) :
    graph.call call = .error (.invalidState s) := by
  cases call with
  | addState | deleteAllStates | renumber | sort => cases (List.nil_eq_append_iff.mp named).2
  | addArc source arc =>
    show (graph.check arc.target >>= fun _ => graph.update source _) = _
    rcases List.cons_eq_append_iff.mp named with ⟨-, rest⟩ | ⟨first, rfl, rest⟩
    · obtain rfl := (List.cons.inj rest).1
      rw [check_of_lost lost]
      rfl
    · obtain rfl := eq_of_singleton_eq rest
      rw [check_of_live (live _ List.mem_cons_self)]
      exact update_of_lost lost
  | setStart t =>
    obtain rfl := eq_of_singleton_eq named
    show (graph.check s >>= _) = _
    rw [check_of_lost lost]
    rfl
  | setFinal t weight =>
    obtain rfl := eq_of_singleton_eq named
    exact update_of_lost lost
  | deleteFinal t =>
    obtain rfl := eq_of_singleton_eq named
    exact update_of_lost lost
  | deleteStates doomed =>
    exact deleteStates_of_lost (find?_not_below.mpr ⟨lost, before, after, named, live⟩)
  | deleteArcs t positions =>
    obtain rfl := eq_of_singleton_eq named
    cases positions with
    | none => exact update_of_lost lost
    | some positions => exact deleteArcs_of_absent (Array.getElem?_eq_none lost)

/-- A call that names only states of the graph succeeds, unless it names a position without an arc or an order that
is no permutation. -/
theorem call_of_live (formed : graph.WellFormed) {call : Call W} (live : ∀ s ∈ call.states, s < graph.size) :
    (∃ next, graph.call call = .ok next) ∨ ∃ error, Fault graph call error := by
  have updated {s : StateId} {change : State W → State W} (inside : s < graph.size) :
      ∃ next, graph.update s change = .ok next := ⟨_, update_of_live inside⟩
  cases call with
  | addState | deleteAllStates => exact .inl ⟨_, rfl⟩
  | addArc source arc =>
    obtain ⟨next, done⟩ : ∃ next, graph.update source (·.addArc arc) = .ok next :=
      updated (live source (.tail _ List.mem_cons_self))
    refine .inl ⟨next, ?_⟩
    show (graph.check arc.target >>= fun _ => graph.update source _) = _
    rw [check_of_live (live _ List.mem_cons_self)]
    exact done
  | setStart s =>
    refine .inl ⟨{ graph with start := some s }, ?_⟩
    show (graph.check s >>= _) = _
    rw [check_of_live (live s List.mem_cons_self)]
    rfl
  | setFinal s weight => exact .inl (updated (live s List.mem_cons_self))
  | deleteFinal s => exact .inl (updated (live s List.mem_cons_self))
  | deleteStates doomed => exact .inl ⟨_, deleteStates_of_live live⟩
  | deleteArcs s positions =>
    have inside := live s List.mem_cons_self
    cases positions with
    | none => exact .inl (updated inside)
    | some positions =>
      obtain ⟨state, found⟩ := exists_state inside
      cases first : positions.find? fun position => decide (state.arcs.size ≤ position) with
      | none =>
        have within : ∀ position ∈ positions, position < state.arcs.size := fun position member => by
          simpa using List.find?_eq_none.mp first position member
        exact .inl ⟨_, deleteArcs_of_live found within⟩
      | some position =>
        obtain ⟨outside, before, after, rfl, within⟩ := find?_not_below.mp first
        exact .inr ⟨_, .arc found within outside⟩
  | renumber order =>
    by_cases permutation : Permutation graph.size order
    · obtain ⟨next, done, -⟩ := renumber_permutation formed permutation
      exact .inl ⟨next, done⟩
    · exact .inr ⟨_, .order (mt permutation_iff_perm.mpr permutation)⟩
  | sort =>
    rcases sorted?_cases formed with ⟨-, found⟩ | ⟨-, result, _, found, -⟩
    · exact .inl ⟨graph, by rw [call, found]; rfl⟩
    · exact .inl ⟨result, by rw [call, found]; rfl⟩

theorem Fault.call_eq {call : Call W} {error : GraphError} (fault : Fault graph call error) :
    graph.call call = .error error := by
  cases fault with
  | state named live lost => exact call_of_lost named live lost
  | arc found inside outside =>
    exact deleteArcs_of_outside found (find?_not_below.mpr ⟨outside, _, _, rfl, inside⟩)
  | order refused => exact renumber_error (mt permutation_iff_perm.mp refused)

theorem call_error_iff (formed : graph.WellFormed) {call : Call W} {error : GraphError} :
    graph.call call = .error error ↔ Fault graph call error := by
  refine ⟨fun failed => ?_, Fault.call_eq⟩
  have refused : ∃ error, Fault graph call error := by
    cases first : call.states.find? fun s => decide (graph.size ≤ s) with
    | some s =>
      obtain ⟨lost, before, after, named, live⟩ := find?_not_below.mp first
      exact ⟨_, .state named live lost⟩
    | none =>
      have live : ∀ s ∈ call.states, s < graph.size := fun s member => by
        simpa using List.find?_eq_none.mp first s member
      rcases call_of_live formed live with ⟨next, done⟩ | refused
      · cases done.symm.trans failed
      · exact refused
  obtain ⟨other, fault⟩ := refused
  cases fault.call_eq.symm.trans failed
  exact fault

theorem exists_first {numbers : List Nat} {bound : Nat} (some : ∃ number ∈ numbers, bound ≤ number) :
    ∃ before number after, numbers = before ++ number :: after ∧ (∀ other ∈ before, other < bound) ∧
      bound ≤ number := by
  obtain ⟨number, first⟩ : ∃ number, numbers.find? (fun other => decide (bound ≤ other)) = .some number :=
    Option.isSome_iff_exists.mp (by simpa using some)
  obtain ⟨outside, before, after, split, inside⟩ := find?_not_below.mp first
  exact ⟨before, number, after, split, inside, outside⟩

theorem exists_fault_iff {call : Call W} : (∃ error, Fault graph call error) ↔
    (∃ s ∈ call.states, graph.size ≤ s) ∨
    (∃ s state positions, call = .deleteArcs s (some positions) ∧ graph.states[s]? = some state ∧
      ∃ position ∈ positions, state.arcs.size ≤ position) ∨
    ∃ order, call = .renumber order ∧ ¬ order.toList.Perm (List.range graph.size) := by
  constructor
  · intro given
    obtain ⟨error, fault⟩ := given
    cases fault with
    | state named live lost => exact .inl ⟨_, named ▸ List.mem_append_cons_self, lost⟩
    | arc found inside outside => exact .inr (.inl ⟨_, _, _, rfl, found, _, List.mem_append_cons_self, outside⟩)
    | order refused => exact .inr (.inr ⟨_, rfl, refused⟩)
  · intro given
    rcases given with lost | ⟨s, state, positions, rfl, found, outside⟩ | ⟨order, rfl, refused⟩
    · obtain ⟨before, s, after, named, live, lost⟩ := exists_first lost
      exact ⟨_, .state named live lost⟩
    · obtain ⟨before, position, after, rfl, inside, outside⟩ := exists_first outside
      exact ⟨_, .arc found inside outside⟩
    · exact ⟨_, .order refused⟩

theorem not_perm_range_iff {order : Array StateId} : ¬ order.toList.Perm (List.range graph.size) ↔
    order.size ≠ graph.size ∨ ¬ order.toList.Nodup ∨ ∃ place ∈ order, graph.size ≤ place := by
  rw [← permutation_iff_perm]
  constructor
  · intro refused
    by_contra! fine
    exact refused ⟨fine.1, fine.2.1, fine.2.2⟩
  · intro given permutation
    rcases given with size | repeated | ⟨place, member, outside⟩
    · exact size permutation.sized
    · exact repeated permutation.distinct
    · exact Nat.not_lt.mpr outside (permutation.bounded place member)

end Graph

/-- A change in place. What it has written stays written when a later step fails. -/
abbrev InPlace (W : Type) := ExceptT GraphError (StateM (Graph W))

namespace InPlace

open Transducer.Graph

def result (program : InPlace W α) (graph : Graph W) : Except GraphError α × Graph W :=
  Id.run (StateT.run (ExceptT.run program) graph)

def check (s : StateId) : InPlace W Unit := do
  if (← get).size ≤ s then throw (.invalidState s)

def writeState (s : StateId) (change : State W → State W) : InPlace W Unit :=
  modify fun graph => graph.modify s change

def writeStates (states : Array (State W)) : InPlace W Unit := modify fun graph => { graph with states }

def writeStart (start : Option StateId) : InPlace W Unit := modify fun graph => { graph with start }

/-- Clears one flag after the other, up to the first position that has none. -/
def strikeEach (s : StateId) : List Nat → Array Bool → InPlace W (Array Bool)
  | [], flags => return flags
  | position :: positions, flags =>
    if position < flags.size then strikeEach s positions (flags.setIfInBounds position false)
    else throw (.invalidArc s position)

def renumber (order : Array StateId) : InPlace W Unit := do
  let graph ← get
  if order.size ≠ graph.size then throw .invalidPermutation
  unless isDistinct (Array.replicate graph.size false) order.toList do throw .invalidPermutation
  let move (s : StateId) : Option StateId := order[s]?
  writeStates (arrange (graph.states.map fun state => state.redirect move) order)
  writeStart (graph.start.bind move)

def perform : Call W → InPlace W Unit
  | .addState => modify Graph.addState
  | .addArc source arc => do
    check arc.target
    check source
    writeState source fun state => state.addArc arc
  | .setStart s => do
    check s
    writeStart (some s)
  | .setFinal s weight => do
    check s
    writeState s fun state => { state with final := some weight }
  | .deleteFinal s => do
    check s
    writeState s fun state => { state with final := none }
  | .deleteStates doomed => do
    doomed.forM check
    let graph ← get
    let kept := strike doomed (Array.replicate graph.size true)
    let left := graph.compact (compactFrom 0 kept.toList).toArray
    writeStates left.states
    writeStart left.start
  | .deleteAllStates => do
    writeStates #[]
    writeStart none
  | .deleteArcs s none => do
    check s
    writeState s fun state => { state with arcs := #[] }
  | .deleteArcs s (some positions) => do
    check s
    let arcs := ((← get).arcsFrom s).toArray
    let kept ← strikeEach s positions (Array.replicate arcs.size true)
    let remaining := (arcs.zip kept).filterMap fun (arc, stays) => if stays then some arc else none
    writeState s fun state => { state with arcs := remaining }
  | .renumber order => renumber order
  | .sort => do
    let graph ← get
    unless graph.isSorted do
      match graph.topOrder? with
      | .ok (some order) => renumber order
      | .ok none => return
      | .error error => throw error

/-- The program leaves the graph of the result behind, and without a result the graph that it found. -/
def Settles (program : InPlace W Unit) (graph : Graph W) (given : Except GraphError (Graph W)) : Prop :=
  program.result graph = match given with
    | .ok next => (.ok (), next)
    | .error error => (.error error, graph)

theorem result_bind_of_ok {program : InPlace W α} {value : α} {middle : Graph W}
    (done : program.result graph = (.ok value, middle)) (next : α → InPlace W β) :
    (program >>= next).result graph = (next value).result middle := by
  have done : StateT.run program.run graph = (.ok value, middle) := done
  rw [result, ExceptT.run_bind, StateT.run_bind, done]
  rfl

theorem result_bind_of_error {program : InPlace W α} {error : GraphError} {middle : Graph W}
    (failed : program.result graph = (.error error, middle)) (next : α → InPlace W β) :
    (program >>= next).result graph = (.error error, middle) := by
  have failed : StateT.run program.run graph = (.error error, middle) := failed
  rw [result, ExceptT.run_bind, StateT.run_bind, failed]
  rfl

theorem result_get_bind (next : Graph W → InPlace W α) : (get >>= next).result graph = (next graph).result graph := rfl

theorem result_check (s : StateId) : (check s).result graph = (graph.check s, graph) := by
  rw [check, result_get_bind]
  by_cases lost : graph.size ≤ s
  · rw [if_pos lost, check_of_lost lost]
    rfl
  · rw [if_neg lost, check_of_live (Nat.not_le.mp lost)]
    rfl

theorem result_forM_check (named : List StateId) :
    (named.forM check).result graph = (named.forM graph.check, graph) := by
  induction named with
  | nil => rfl
  | cons s named ih =>
    show (check s >>= fun _ => named.forM check).result graph =
      (graph.check s >>= fun _ => named.forM graph.check, graph)
    by_cases lost : graph.size ≤ s
    · rw [result_bind_of_error (by rw [result_check, check_of_lost lost]), check_of_lost lost]
      rfl
    · rw [result_bind_of_ok (by rw [result_check, check_of_live (Nat.not_le.mp lost)]),
        check_of_live (Nat.not_le.mp lost), ih]
      rfl

theorem result_strikeEach (s : StateId) (positions : List Nat) (flags : Array Bool) :
    (strikeEach s positions flags).result graph =
      (match positions.find? fun position => decide (flags.size ≤ position) with
        | some position => .error (.invalidArc s position)
        | none => .ok (strike positions flags), graph) := by
  induction positions generalizing flags with
  | nil => rfl
  | cons position positions ih =>
    unfold strikeEach
    by_cases inside : position < flags.size
    · rw [if_pos inside, ih, Array.size_setIfInBounds, List.find?_cons_of_neg (by simpa using inside)]
      rfl
    · rw [if_neg inside, List.find?_cons_of_pos (by simpa using inside)]
      rfl

/-- What comes after checks settles as it does without them, and not at all when they fail. -/
theorem Settles.after {checks : InPlace W Unit} {checked : Except GraphError Unit} {rest : InPlace W Unit}
    {given : Except GraphError (Graph W)} (reads : checks.result graph = (checked, graph))
    (settles : Settles rest graph given) : Settles (checks >>= fun _ => rest) graph (checked >>= fun _ => given) := by
  cases checked with
  | ok done => exact (result_bind_of_ok reads _).trans settles
  | error error => exact result_bind_of_error reads _

theorem update_eq (s : StateId) (change : State W → State W) :
    graph.update s change = (graph.check s >>= fun _ => .ok (graph.modify s change)) := by
  unfold Graph.update Graph.check
  split <;> rfl

theorem writeState_settles {s : StateId} {change : State W → State W} :
    Settles (do check s; writeState s change) graph (graph.update s change) := by
  rw [update_eq]
  exact .after (result_check s) rfl

theorem renumber_settles (order : Array StateId) : Settles (renumber order) graph (graph.renumber order) := by
  unfold Settles renumber Graph.renumber
  rw [result_get_bind]
  by_cases sized : order.size = graph.size
  · cases isDistinct (Array.replicate graph.size false) order.toList with
    | true =>
      simp only [sized, ne_eq, not_true_eq_false, if_false, if_true, and_self]
      rfl
    | false =>
      simp only [sized, ne_eq, not_true_eq_false, if_false, Bool.false_eq_true, ExceptT.bind_throw, and_false]
      rfl
  · simp only [ne_eq, sized, not_false_eq_true, if_true, ExceptT.bind_throw, false_and, if_false]
    rfl

theorem deleteArcs_settles (s : StateId) (positions : List Nat) :
    Settles (perform (.deleteArcs s (some positions))) graph (graph.deleteArcs s positions) := by
  show Settles (check s >>= fun _ => _) _ _
  cases found : graph.states[s]? with
  | none =>
    have lost : graph.size ≤ s := Array.getElem?_eq_none_iff.mp found
    rw [deleteArcs_of_absent found]
    exact result_bind_of_error (by rw [result_check, check_of_lost lost]) _
  | some state =>
    have inside : s < graph.size := (Array.getElem?_eq_some_iff.mp found).1
    have listed : (graph.arcsFrom s).toArray = state.arcs := by rw [arcsFrom, found]
    unfold Settles
    rw [result_bind_of_ok (by rw [result_check, check_of_live inside]), result_get_bind, listed, deleteArcs,
      arcs_of_getElem? found]
    have flags : (strikeEach s positions (Array.replicate state.arcs.size true)).result graph = _ :=
      result_strikeEach s positions _
    rw [Array.size_replicate] at flags
    cases outside : positions.find? fun position => decide (state.arcs.size ≤ position) with
    | some position =>
      rw [outside] at flags
      rw [result_bind_of_error flags]
      simp only [bind, Except.bind, outside]
    | none =>
      rw [outside] at flags
      rw [result_bind_of_ok flags]
      simp only [bind, Except.bind, outside, update, inside, if_true]
      rfl

theorem call_sort_eq (graph : Graph W) : graph.call .sort = if graph.isSorted then .ok graph else
    match graph.topOrder? with
      | .ok (some order) => graph.renumber order
      | .ok none => .ok graph
      | .error error => .error error := by
  unfold call sorted?
  cases graph.isSorted with
  | true => rfl
  | false =>
    rcases graph.topOrder? with error | _ | order
    · rfl
    · rfl
    · show ((graph.renumber order >>= fun next => .ok (some next)) >>= fun sorted => .ok (sorted.getD graph)) =
        graph.renumber order
      cases graph.renumber order <;> rfl

/-- In place a call leaves behind what it gives as a function, and it writes nothing before it fails. -/
theorem perform_settles (call : Call W) : Settles (perform call) graph (graph.call call) := by
  cases call with
  | addState => rfl
  | addArc source arc => exact .after (result_check arc.target) writeState_settles
  | setStart s => exact .after (result_check s) rfl
  | setFinal s weight => exact writeState_settles
  | deleteFinal s => exact writeState_settles
  | deleteStates doomed => exact .after (result_forM_check doomed) rfl
  | deleteAllStates => rfl
  | deleteArcs s positions =>
    cases positions with
    | none => exact writeState_settles
    | some positions => exact deleteArcs_settles s positions
  | renumber order => exact renumber_settles order
  | sort =>
    unfold Settles perform
    rw [result_get_bind, call_sort_eq]
    cases graph.isSorted with
    | true => rfl
    | false =>
      rcases graph.topOrder? with error | _ | order
      · rfl
      · rfl
      · exact renumber_settles order

end InPlace

namespace Graph

/-- On a well-formed graph a call fails if and only if it names a state, an arc or an order that the graph does not
have. The error is for the first of them, and in place too the graph is left as it was. -/
theorem calls_refused (formed : graph.WellFormed) (call : Call W) :
    ((∃ error, graph.call call = .error error) ↔
      (∃ s ∈ call.states, graph.size ≤ s) ∨
      (∃ s state positions, call = .deleteArcs s (some positions) ∧ graph.states[s]? = some state ∧
        ∃ position ∈ positions, state.arcs.size ≤ position) ∨
      ∃ order, call = .renumber order ∧
        (order.size ≠ graph.size ∨ ¬ order.toList.Nodup ∨ ∃ place ∈ order, graph.size ≤ place)) ∧
    (∀ error, graph.call call = .error error ↔ Fault graph call error) ∧
    (∀ error, graph.call call = .error error →
      (InPlace.perform call).result graph = (.error error, graph) ∧ graph.after call = graph) ∧
    ∀ next, graph.call call = .ok next → (InPlace.perform call).result graph = (.ok (), next) := by
  have settles : (InPlace.perform call).result graph = _ := InPlace.perform_settles call
  refine ⟨?_, fun error => call_error_iff formed, fun error failed => ⟨?_, after_of_error failed⟩, fun next done => ?_⟩
  · simp only [call_error_iff formed, ← not_perm_range_iff]
    exact exists_fault_iff
  · rw [settles, failed]
  · rw [settles, done]

/-- A good state before the bad one and a good position before the bad one change nothing. -/
theorem chains_refuse :
    chains.call (.deleteStates [1, 7, 0, 9]) = .error (.invalidState 7) ∧
    (InPlace.perform (.deleteStates [1, 7, 0, 9])).result chains = (.error (.invalidState 7), chains) ∧
    chains.call (.deleteArcs 2 (some [1, 5, 0])) = .error (.invalidArc 2 5) ∧
    (InPlace.perform (.deleteArcs 2 (some [1, 5, 0]))).result chains = (.error (.invalidArc 2 5), chains) := by
  obtain ⟨-, faults, kept, -⟩ := calls_refused chains_wellFormed (.deleteStates [1, 7, 0, 9])
  have state := (faults _).mpr (.state (show _ = [1] ++ 7 :: [0, 9] from rfl) (by decide) (by decide))
  obtain ⟨-, faults, kept', -⟩ := calls_refused chains_wellFormed (.deleteArcs 2 (some [1, 5, 0]))
  have source : chains.states[2]? = some { arcs := #[⟨2, 1, (), 1⟩, ⟨3, 1, (), 1⟩] } := rfl
  have inside : ∀ other ∈ [1], other < 2 := by decide
  have outside : 2 ≤ 5 := by decide
  have arc : chains.call (.deleteArcs 2 (some ([1] ++ 5 :: [0]))) = .error (.invalidArc 2 5) :=
    (faults _).mpr (.arc source inside outside)
  exact ⟨state, (kept _ state).1, arc, (kept' _ arc).1⟩

end Graph

end Transducer
