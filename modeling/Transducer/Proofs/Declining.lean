import Transducer.Proofs.DepthFirst

/-! How a visitor stops a search. Up to its first no the visitor is told what any other is told, and from then on
it is told of nothing but the ends of the states that are open. -/

namespace Transducer

variable {W V : Type}

/-- All that a visitor hears if it always says yes. -/
def Graph.tour (graph : Graph W) : List (Event W) := graph.events (fun (_ : Unit) _ => ((), true)) ()

/-- The ends of the open states, given with the innermost first. -/
def unwinding : List StateId → List (Event W)
  | [] => []
  | s :: outer => .finish s outer.head? :: unwinding outer

/-- What becomes of the events to come when the visitor may decline one of them. -/
def curtailed (visit : V → Event W → V × Bool) : V → List (Event W) → List (Event W) → List (Event W)
  | _, _, [] => []
  | visitor, heard, event :: rest =>
    if event.asks = true ∧ (visit visitor event).2 = false then
      event :: (unwinding (openStates (heard ++ [event])) ++ [.done])
    else event :: curtailed visit (visit visitor event).1 (heard ++ [event]) rest

section Curtailed

variable {visit : V → Event W → V × Bool} {visitor : V} {heard planned before after : List (Event W)}
  {event : Event W}

theorem curtailed_cons_of_no (asks : event.asks = true) (no : (visit visitor event).2 = false) :
    curtailed visit visitor heard (event :: planned) =
      event :: (unwinding (openStates (heard ++ [event])) ++ [.done]) := by
  rw [curtailed, if_pos ⟨asks, no⟩]

theorem curtailed_cons_of_yes (yes : event.asks = true → (visit visitor event).2 = true) :
    curtailed visit visitor heard (event :: planned) =
      event :: curtailed visit (visit visitor event).1 (heard ++ [event]) planned := by
  rw [curtailed, if_neg]
  rintro ⟨asks, no⟩
  cases (yes asks).symm.trans no

theorem curtailed_of_agrees (agrees : Agrees visit visitor (curtailed visit visitor heard planned)) :
    curtailed visit visitor heard planned = planned := by
  induction planned generalizing visitor heard with
  | nil => rfl
  | cons event planned ih =>
    by_cases no : event.asks = true ∧ (visit visitor event).2 = false
    · rw [curtailed_cons_of_no no.1 no.2] at agrees
      cases (agrees.1 no.1).symm.trans no.2
    · have yes : event.asks = true → (visit visitor event).2 = true := by simpa using no
      rw [curtailed_cons_of_yes yes] at agrees ⊢
      rw [ih agrees.2]

/-- The first no is the last event but for the ends of the states open by then. -/
theorem curtailed_of_declines (given : curtailed visit visitor heard planned = before ++ event :: after)
    (agrees : Agrees visit visitor before) (asks : event.asks = true)
    (no : (visit (hearing visit visitor before) event).2 = false) :
    before ++ [event] <+: planned ∧ after = unwinding (openStates (heard ++ before ++ [event])) ++ [.done] := by
  induction planned generalizing visitor heard before with
  | nil => simp [curtailed] at given
  | cons first planned ih =>
    cases before with
    | nil =>
      obtain rfl : first = event := by
        unfold curtailed at given
        split at given <;> exact (List.cons.inj given).1
      have declines : (visit visitor first).2 = false := no
      rw [curtailed_cons_of_no asks declines] at given
      exact ⟨⟨planned, rfl⟩, by simpa using (List.cons.inj given).2.symm⟩
    | cons other before =>
      obtain rfl : first = other := by
        unfold curtailed at given
        split at given <;> exact (List.cons.inj given).1
      rw [curtailed_cons_of_yes agrees.1] at given
      obtain ⟨⟨rest, same⟩, ends⟩ := ih (List.cons.inj given).2 agrees.2 no
      exact ⟨⟨rest, congrArg (first :: ·) same⟩, by simpa using ends⟩

end Curtailed

namespace Search

variable {graph : Graph W} {search : Search W} {visit : V → Event W → V × Bool}

/-- A search that has been stopped leaves the states on its path and does no more. -/
theorem events_halted (visitor : V) (halted : search.running = false) (entered : search.entering = false) :
    search.events graph visit visitor = unwinding (search.path.map Frame.state) ++ [.done] := by
  obtain ⟨frames, path⟩ : ∃ frames, search.path = frames := ⟨_, rfl⟩
  induction frames generalizing search visitor with
  | nil =>
    have stops : search.step graph = .stop := by simp [step, path, halted]
    rw [events_stop stops, path]
    rfl
  | cons frame outer ih =>
    have leaves : search.step graph =
        .tell (.finish frame.state (outer.head?.map Frame.state)) (search.leave frame.state outer) := by
      simp [step, path, halted, entered]
    have rest (visitor : V) : (search.leave frame.state outer).events graph visit visitor =
        unwinding (outer.map Frame.state) ++ [.done] := ih visitor halted entered rfl
    rw [events_tell leaves, rest, path, List.map_cons, unwinding, List.head?_map, List.cons_append]

/-- A no leaves the search on the states that are open. -/
theorem Moves.declined {event : Event W} {next : Bool → Search W} (moves : Moves graph search (.ask event next)) :
    (next false).running = false ∧ (next false).entering = false ∧
      (next false).path.map Frame.state = (next true).met := by
  cases moves with
  | discover path entering => exact ⟨rfl, rfl, rfl⟩
  | tree path entered running rest white => exact ⟨rfl, entered, rfl⟩
  | back path entered running rest grey => exact ⟨rfl, entered, by simp [met, entered]⟩
  | cross path entered running rest black => exact ⟨rfl, entered, by simp [met, entered]⟩

/-- What a visitor hears is what it would hear by saying yes, curtailed by its first no. -/
theorem events_eq_curtailed (formed : graph.WellFormed) (visitor : V) (heard : List (Event W))
    (keeps : Keeps graph heard search) :
    search.events graph visit visitor =
      curtailed visit visitor heard (search.events graph (fun (_ : Unit) _ => ((), true)) ()) := by
  induction search using step_induction graph generalizing visitor heard with
  | step search ih =>
    have moves := step_moves graph search
    cases taken : search.step graph with
    | pass next =>
      rw [taken] at moves
      rw [events_pass taken, events_pass taken]
      exact ih next (taken ▸ .pass) visitor heard (keeps.pass moves)
    | ask event next =>
      rw [taken] at moves
      have asked := keeps.ask moves
      rw [events_ask taken, events_ask taken]
      cases answer : (visit visitor event).2 with
      | true =>
        rw [curtailed_cons_of_yes fun _ => answer, ih (next true) (taken ▸ .ask true) _ _ asked]
      | false =>
        -- What is open after the yes is what the search has on its path after the no.
        obtain ⟨halted, entered, path⟩ := moves.declined
        rw [curtailed_cons_of_no moves.asks answer, events_halted _ halted entered, path, asked.recounts.opened]
    | tell event next =>
      rw [taken] at moves
      have yes (asks : event.asks = true) : (visit visitor event).2 = true := by
        cases moves.not_asks.symm.trans asks
      rw [events_tell taken, events_tell taken, curtailed_cons_of_yes yes]
      rw [ih next (taken ▸ .tell) _ _ (keeps.tell moves)]
    | fail s =>
      rw [taken] at moves
      exact (formed.not_lost (Departures.lost_of_fail keeps.recounts.valid moves)).elim
    | stop =>
      rw [events_stop taken, events_stop taken, curtailed_cons_of_yes (by simp [Event.asks])]
      rfl

end Search

namespace Graph

variable {graph : Graph W}

/-- A visitor hears of the whole graph until it says no. It then hears the ends of the states that are open, from
the innermost to the outermost, and that the search is done. -/
theorem declining_unwinds (formed : graph.WellFormed) (visit : V → Event W → V × Bool) (visitor : V) :
    graph.search visit visitor = (hearing visit visitor (graph.events visit visitor), .ok ()) ∧
    (Agrees visit visitor (graph.events visit visitor) → graph.events visit visitor = graph.tour) ∧
    ∀ before event after, graph.events visit visitor = before ++ event :: after → Agrees visit visitor before →
      event.asks = true → (visit (hearing visit visitor before) event).2 = false →
      before ++ [event] <+: graph.tour ∧ after = unwinding (openStates (before ++ [event])) ++ [.done] := by
  have curtailed : graph.events visit visitor = curtailed visit visitor [] graph.tour :=
    Search.events_eq_curtailed formed visitor [] (Search.begin_keeps graph)
  refine ⟨Prod.ext (search_hearing graph visit visitor) (search_ok formed visit visitor), ?_, ?_⟩
  · intro agrees
    rw [curtailed] at agrees ⊢
    exact curtailed_of_agrees agrees
  · intro before event after given
    exact curtailed_of_declines (curtailed.symm.trans given)

/-- A visitor that declines every tree arc is never told of what the first one leads to. -/
theorem knot_unwinds :
    [.discover 1 1, .treeArc 1 ⟨3, 3, (), 2⟩] <+: knot.tour ∧
    knot.events (fun (_ : Unit) event => ((), event.awaited?.isNone)) () =
      [.discover 1 1, .treeArc 1 ⟨3, 3, (), 2⟩, .finish 1 none, .done] := by
  obtain ⟨after, given⟩ : ∃ after, knot.events (fun (_ : Unit) event => ((), event.awaited?.isNone)) () =
      [.discover 1 1] ++ .treeArc 1 ⟨3, 3, (), 2⟩ :: after := by
    change ∃ after, Search.events knot _ () (Search.begin knot) = _
    rw [Search.events_pass rfl, Search.events_ask rfl, Search.events_ask rfl]
    exact ⟨_, rfl⟩
  obtain ⟨shared, rfl⟩ := (declining_unwinds knot_wellFormed _ ()).2.2 _ _ after given ⟨fun _ => rfl, trivial⟩ rfl rfl
  exact ⟨shared, given⟩

end Graph

end Transducer
