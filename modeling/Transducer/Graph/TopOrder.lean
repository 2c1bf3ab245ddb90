import Transducer.Graph.Edit
import Transducer.Graph.Search

/-! Topological order. A search without a back arc leaves every state after all states that it leads
to, so counting the states from the last one left gives numbers that grow along every arc. -/

namespace Transducer

/-- The states that a search has left, the last one first, and whether it has met no back arc. -/
structure Departures where
  left : List StateId := []
  acyclic : Bool := true

namespace Departures

/-- Stops at the first back arc. -/
def visit {W : Type} (departures : Departures) : Event W → Departures × Bool
  | .backArc _ _ => ({ departures with acyclic := false }, false)
  | .finish state _ => ({ departures with left := state :: departures.left }, true)
  | _ => (departures, true)

/-- The position of each state in the list. -/
def ranks (left : List StateId) : Array StateId :=
  left.zipIdx.foldl (fun ranks (state, rank) => ranks.setIfInBounds state rank)
    (Array.replicate left.length 0)

end Departures

namespace Graph

variable {W : Type}

/-- A number for each state that grows along every arc, if there is no cycle. -/
def topOrder? (graph : Graph W) : Except GraphError (Option (Array StateId)) :=
  match graph.search Departures.visit {} with
  | (_, .error error) => .error error
  | (departures, .ok ()) => .ok (if departures.acyclic then some (Departures.ranks departures.left) else none)

/-- The graph with its states in topological order, if there is no cycle. A sorted graph stays as it is. -/
def sorted? (graph : Graph W) : Except GraphError (Option (Graph W)) := do
  if graph.isSorted then return some graph
  match ← graph.topOrder? with
  | some order => return some (← graph.renumber order)
  | none => return none

end Graph

end Transducer
