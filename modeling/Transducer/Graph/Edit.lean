import Transducer.Graph.Basic

/-! Changes to a graph. Each checks the states that it names before it changes anything, and those that
renumber the states carry the arcs and the start along. -/

namespace Transducer

namespace State

variable {W : Type}

def addArc (state : State W) (arc : Arc W) : State W := { state with arcs := state.arcs.push arc }

/-- Redirects each arc by its target, or drops it where there is no new target. -/
def redirect (state : State W) (move : StateId → Option StateId) : State W :=
  { state with
    arcs := state.arcs.filterMap fun arc => (move arc.target).map fun target => { arc with target } }

end State

namespace Graph

variable {W : Type}

def addState (graph : Graph W) : Graph W := { graph with states := graph.states.push {} }

def addStates (graph : Graph W) : Nat → Graph W
  | 0 => graph
  | count + 1 => addStates graph.addState count

def check (graph : Graph W) (s : StateId) : Except GraphError Unit :=
  if s < graph.size then .ok () else .error (.invalidState s)

/-- Changes one state, or nothing if there is no such state. -/
def modify (graph : Graph W) (s : StateId) (change : State W → State W) : Graph W :=
  { graph with states := graph.states.modify s change }

def update (graph : Graph W) (s : StateId) (change : State W → State W) : Except GraphError (Graph W) :=
  if s < graph.size then .ok (graph.modify s change) else .error (.invalidState s)

/-- The target is checked before the source. -/
def addArc (graph : Graph W) (source : StateId) (arc : Arc W) : Except GraphError (Graph W) := do
  graph.check arc.target
  graph.update source fun state => state.addArc arc

def setStart (graph : Graph W) (s : StateId) : Except GraphError (Graph W) := do
  graph.check s
  return { graph with start := some s }

def setFinal (graph : Graph W) (s : StateId) (w : W) : Except GraphError (Graph W) :=
  graph.update s fun state => { state with final := some w }

def deleteFinal (graph : Graph W) (s : StateId) : Except GraphError (Graph W) :=
  graph.update s fun state => { state with final := none }

/-- The new number of each state when those kept move up, and none for the others. -/
def compactFrom (next : StateId) : List Bool → List (Option StateId)
  | [] => []
  | true :: kept => some next :: compactFrom (next + 1) kept
  | false :: kept => none :: compactFrom next kept

/-- Clears the entries of an array at the given positions. -/
def strike (positions : List Nat) (flags : Array Bool) : Array Bool :=
  positions.foldl (fun flags position => flags.setIfInBounds position false) flags

/-- Keeps the states that have a new number, in their order, and every arc between them. -/
def compact (graph : Graph W) (numbers : Array (Option StateId)) : Graph W :=
  let move (s : StateId) : Option StateId := (numbers[s]?).join
  { start := graph.start.bind move
    states := (graph.states.zip numbers).filterMap fun (state, number) =>
      number.map fun _ => state.redirect move }

def deleteStates (graph : Graph W) (doomed : List StateId) : Except GraphError (Graph W) := do
  doomed.forM graph.check
  let kept := strike doomed (Array.replicate graph.size true)
  return graph.compact (compactFrom 0 kept.toList).toArray

def deleteAllStates (_graph : Graph W) : Graph W := empty

def deleteAllArcs (graph : Graph W) (s : StateId) : Except GraphError (Graph W) :=
  graph.update s fun state => { state with arcs := #[] }

/-- Deletes the arcs of a state at the given positions. -/
def deleteArcs (graph : Graph W) (s : StateId) (positions : List Nat) : Except GraphError (Graph W) := do
  let arcs ← graph.arcs s
  match positions.find? fun position => arcs.size ≤ position with
  | some position => .error (.invalidArc s position)
  | none =>
    let kept := strike positions (Array.replicate arcs.size true)
    let remaining := (arcs.zip kept).filterMap fun (arc, stays) => if stays then some arc else none
    graph.update s fun state => { state with arcs := remaining }

/-- Each number is below the size and none comes twice, in a list of numbers or among those seen. -/
def isDistinct (seen : Array Bool) : List StateId → Bool
  | [] => true
  | s :: rest =>
    match seen[s]? with
    | some false => isDistinct (seen.setIfInBounds s true) rest
    | _ => false

/-- Puts each state in the place that the order has for it. -/
def arrange (states : Array (State W)) (order : Array StateId) : Array (State W) :=
  (states.zip order).foldl (fun placed (state, place) => placed.setIfInBounds place state)
    (Array.replicate states.size {})

/-- Renumbers every state `s` as `order[s]`. -/
def renumber (graph : Graph W) (order : Array StateId) : Except GraphError (Graph W) :=
  if order.size = graph.size ∧ isDistinct (Array.replicate graph.size false) order.toList then
    let move (s : StateId) : Option StateId := order[s]?
    .ok { start := graph.start.bind move
          states := arrange (graph.states.map fun state => state.redirect move) order }
  else .error .invalidPermutation

end Graph

end Transducer
