import Transducer.Proofs.SearchInvariant

/-! What a visitor hears of a search. The events are written down beside the visitor as they come, and that
changes neither its answers nor the result, so the record is the whole of what the visitor is told. -/

namespace Transducer

variable {W V : Type}

/-- Only the answers to these events count. -/
def Event.asks : Event W → Bool
  | .discover _ _ | .treeArc _ _ | .backArc _ _ | .crossArc _ _ => true
  | .finish _ _ | .done => false

/-- The visitor with a record of what it has heard. -/
def recording (visit : V → Event W → V × Bool) (state : V × List (Event W)) (event : Event W) :
    (V × List (Event W)) × Bool :=
  (((visit state.1 event).1, state.2 ++ [event]), (visit state.1 event).2)

/-- The visitor after it has heard some events. -/
def hearing (visit : V → Event W → V × Bool) (visitor : V) (heard : List (Event W)) : V :=
  heard.foldl (fun visitor event => (visit visitor event).1) visitor

/-- The visitor says yes to every question among the events. -/
def Agrees (visit : V → Event W → V × Bool) : V → List (Event W) → Prop
  | _, [] => True
  | visitor, event :: rest =>
    (event.asks = true → (visit visitor event).2 = true) ∧ Agrees visit (visit visitor event).1 rest

/-- All that a visitor hears of a graph. -/
def Graph.events (graph : Graph W) (visit : V → Event W → V × Bool) (visitor : V) : List (Event W) :=
  (graph.search (recording visit) (visitor, [])).1.2

namespace Search

variable {graph : Graph W} {visit : V → Event W → V × Bool} {visitor : V} {search next : Search W}

/-- All that a visitor hears from this moment of a search on. -/
def events (graph : Graph W) (visit : V → Event W → V × Bool) (visitor : V) (search : Search W) :
    List (Event W) :=
  (search.run graph (recording visit) (visitor, [])).1.2

theorem Moves.asks {event : Event W} {next : Bool → Search W} (moves : Moves graph search (.ask event next)) :
    event.asks = true := by
  cases moves <;> rfl

theorem Moves.not_asks {event : Event W} (moves : Moves graph search (.tell event next)) : event.asks = false := by
  cases moves
  rfl

/-- What holds of a search if it holds after every step holds of all. -/
theorem step_induction (graph : Graph W) {motive : Search W → Prop}
    (step : ∀ search, (∀ next, (search.step graph).Leads next → motive next) → motive search)
    (search : Search W) : motive search :=
  step search fun next _ => step_induction graph step next
termination_by search.rank
decreasing_by exact step_decreases graph ‹_›

theorem run_pass (taken : search.step graph = .pass next) :
    search.run graph visit visitor = next.run graph visit visitor := by
  rw [run]
  split <;> simp_all

theorem run_ask {event : Event W} {next : Bool → Search W} (taken : search.step graph = .ask event next) :
    search.run graph visit visitor =
      (next (visit visitor event).2).run graph visit (visit visitor event).1 := by
  rw [run]
  split <;> simp_all

theorem run_tell {event : Event W} (taken : search.step graph = .tell event next) :
    search.run graph visit visitor = next.run graph visit (visit visitor event).1 := by
  rw [run]
  split <;> simp_all

theorem run_fail {s : StateId} (taken : search.step graph = .fail s) :
    search.run graph visit visitor = (visitor, .error (.invalidState s)) := by
  rw [run]
  split <;> simp_all

theorem run_stop (taken : search.step graph = .stop) :
    search.run graph visit visitor = ((visit visitor .done).1, .ok ()) := by
  rw [run]
  split <;> simp_all

/-- The record takes nothing from the search and only grows. -/
theorem run_recording (visit : V → Event W → V × Bool) (visitor : V) (heard : List (Event W))
    (search : Search W) :
    search.run graph (recording visit) (visitor, heard) =
      (((search.run graph visit visitor).1, heard ++ search.events graph visit visitor),
        (search.run graph visit visitor).2) := by
  induction search using step_induction graph generalizing visitor heard with
  | step search ih =>
    unfold events
    cases taken : search.step graph with
    | pass next => simp only [run_pass taken, ih next (taken ▸ .pass), List.nil_append]
    | ask event next =>
      have later := ih (next (visit visitor event).2) (taken ▸ .ask _)
      simp only [run_ask taken, recording, later, List.append_assoc, List.nil_append]
    | tell event next =>
      have later := ih next (taken ▸ .tell)
      simp only [run_tell taken, recording, later, List.append_assoc, List.nil_append]
    | fail s => simp only [run_fail taken, List.append_nil]
    | stop => simp only [run_stop taken, recording, List.nil_append]

theorem events_pass (taken : search.step graph = .pass next) :
    search.events graph visit visitor = next.events graph visit visitor := by
  rw [events, run_pass taken, events]

theorem events_ask {event : Event W} {next : Bool → Search W} (taken : search.step graph = .ask event next) :
    search.events graph visit visitor =
      event :: (next (visit visitor event).2).events graph visit (visit visitor event).1 := by
  rw [events, run_ask taken, recording, run_recording]
  rfl

theorem events_tell {event : Event W} (taken : search.step graph = .tell event next) :
    search.events graph visit visitor = event :: next.events graph visit (visit visitor event).1 := by
  rw [events, run_tell taken, recording, run_recording]
  rfl

theorem events_fail {s : StateId} (taken : search.step graph = .fail s) :
    search.events graph visit visitor = [] := by
  rw [events, run_fail taken]

theorem events_stop (taken : search.step graph = .stop) : search.events graph visit visitor = [.done] := by
  rw [events, run_stop taken]
  rfl

/-- A visitor ends as what it has heard leaves it. -/
theorem run_hearing (visit : V → Event W → V × Bool) (visitor : V) (search : Search W) :
    (search.run graph visit visitor).1 = hearing visit visitor (search.events graph visit visitor) := by
  induction search using step_induction graph generalizing visitor with
  | step search ih =>
    cases taken : search.step graph with
    | pass next => rw [run_pass taken, events_pass taken, ih next (taken ▸ .pass)]
    | ask event next => rw [run_ask taken, events_ask taken, ih _ (taken ▸ .ask _), hearing, hearing, List.foldl_cons]
    | tell event next => rw [run_tell taken, events_tell taken, ih _ (taken ▸ .tell), hearing, hearing, List.foldl_cons]
    | fail s => rw [run_fail taken, events_fail taken, hearing, List.foldl_nil]
    | stop => rw [run_stop taken, events_stop taken, hearing, List.foldl_cons, List.foldl_nil]

end Search

namespace Graph

variable {graph : Graph W}

theorem search_recording (graph : Graph W) (visit : V → Event W → V × Bool) (visitor : V) :
    graph.search (recording visit) (visitor, []) =
      (((graph.search visit visitor).1, graph.events visit visitor), (graph.search visit visitor).2) :=
  Search.run_recording visit visitor [] (Search.begin graph)

theorem search_hearing (graph : Graph W) (visit : V → Event W → V × Bool) (visitor : V) :
    (graph.search visit visitor).1 = hearing visit visitor (graph.events visit visitor) :=
  Search.run_hearing visit visitor (Search.begin graph)

end Graph

end Transducer
