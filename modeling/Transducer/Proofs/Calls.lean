import Transducer.Graph.TopOrder

/-! Changes to a graph as data, so that a sequence of them can be any list. A call that fails leaves the
graph as it was. -/

namespace Transducer

inductive Call (W : Type) where
  | addState
  | addArc (source : StateId) (arc : Arc W)
  | setStart (s : StateId)
  | setFinal (s : StateId) (weight : W)
  | deleteFinal (s : StateId)
  | deleteStates (doomed : List StateId)
  | deleteAllStates
  /-- Without positions all arcs of the state are deleted. -/
  | deleteArcs (s : StateId) (positions : Option (List Nat))
  | renumber (order : Array StateId)
  | sort

namespace Graph

variable {W : Type}

/-- The places to which sorting moves the states, if it moves them. -/
def sortingOrder? (graph : Graph W) : Option (Array StateId) :=
  if graph.isSorted then none else graph.topOrder?.toOption.join

def call (graph : Graph W) : Call W → Except GraphError (Graph W)
  | .addState => .ok graph.addState
  | .addArc source arc => graph.addArc source arc
  | .setStart s => graph.setStart s
  | .setFinal s weight => graph.setFinal s weight
  | .deleteFinal s => graph.deleteFinal s
  | .deleteStates doomed => graph.deleteStates doomed
  | .deleteAllStates => .ok graph.deleteAllStates
  | .deleteArcs s none => graph.deleteAllArcs s
  | .deleteArcs s (some positions) => graph.deleteArcs s positions
  | .renumber order => graph.renumber order
  | .sort => return (← graph.sorted?).getD graph

def after (graph : Graph W) (call : Call W) : Graph W := (graph.call call).toOption.getD graph

def afterAll (calls : List (Call W)) : Graph W := calls.foldl after empty

theorem after_of_ok {graph next : Graph W} {call : Call W} (done : graph.call call = .ok next) :
    graph.after call = next := by
  rw [after, done]
  rfl

theorem after_of_error {graph : Graph W} {call : Call W} {error : GraphError}
    (failed : graph.call call = .error error) : graph.after call = graph := by
  rw [after, failed]
  rfl

end Graph

end Transducer
