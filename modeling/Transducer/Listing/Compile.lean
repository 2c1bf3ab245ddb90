import Std.Data.HashMap
import Transducer.Graph.Edit
import Transducer.Listing.Line

/-! The graph that a listing describes. Its states are those that the lines name, in the order in which
they are first named, and the first of them is the start. -/

namespace Transducer

structure ListingError where
  line : Nat
  reason : LineError
deriving DecidableEq, Repr

def ListingError.message (error : ListingError) : String :=
  s!"line {error.line}: " ++ error.reason.message

/-- A graph with the state that each name stands for. -/
structure Draft (W : Type) where
  graph : Graph W := {}
  states : Std.HashMap StateId StateId := {}

namespace Draft

variable {W : Type}

/-- The state of a name, a new one if the name is new. -/
def state (draft : Draft W) (name : StateId) : Draft W × StateId :=
  match draft.states[name]? with
  | some state => (draft, state)
  | none =>
    let state := draft.graph.size
    (⟨draft.graph.addState, draft.states.insert name state⟩, state)

def startAt (draft : Draft W) (state : StateId) : Draft W :=
  { draft with graph := { draft.graph with start := draft.graph.start.or (some state) } }

def modify (draft : Draft W) (s : StateId) (change : State W → State W) : Draft W :=
  { draft with graph := draft.graph.modify s change }

def add (draft : Draft W) : Line W → Draft W
  | .blank => draft
  | .final name weight =>
    let (draft, state) := draft.state name
    (draft.startAt state).modify state fun state => { state with final := some weight }
  | .arc source target input output weight =>
    let (draft, source) := draft.state source
    let (draft, target) := draft.state target
    (draft.startAt source).modify source fun state => state.addArc ⟨input, output, weight, target⟩

/-- Adds lines whose first has the given number. -/
def addLines [Weight W] (tables : LabelTables) (draft : Draft W) (number : Nat) :
    List (List Char) → Except ListingError (Draft W)
  | [] => .ok draft
  | line :: rest =>
    match Line.ofFields tables (Text.fields line) with
    | .ok line => addLines tables (draft.add line) (number + 1) rest
    | .error reason => .error ⟨number, reason⟩

end Draft

def Graph.ofListing {W : Type} [Weight W] (tables : LabelTables) (text : List Char) :
    Except ListingError (Graph W) :=
  return (← Draft.addLines tables {} 1 (Text.lines text)).graph

end Transducer
