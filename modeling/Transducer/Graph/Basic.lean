import Transducer.Weight.LabelString

/-! Transducer graphs. A state is its position in the graph, so its arcs and the start name other
states by number. Reading a graph is safe whatever these numbers are, and in a well-formed graph all of
them are states. Programs hold the numbers in 32-bit words, which are enough for a graph that is counted
by one. -/

namespace Transducer

abbrev StateId := Nat

structure Arc (W : Type) where
  input : Label
  output : Label
  weight : W
  target : StateId
deriving DecidableEq, Repr

/-- A state is final if it has a final weight, even if that weight is zero. -/
structure State (W : Type) where
  final : Option W := none
  arcs : Array (Arc W) := #[]
deriving DecidableEq, Repr

structure Graph (W : Type) where
  start : Option StateId := none
  states : Array (State W) := #[]
deriving DecidableEq, Repr

inductive GraphError where
  | invalidState (state : StateId)
  | invalidArc (state : StateId) (index : Nat)
  | invalidPermutation
deriving DecidableEq, Repr

def GraphError.message : GraphError → String
  | invalidState state => s!"invalid state id {state}"
  | invalidArc state index => s!"invalid arc index {index} for state {state}"
  | invalidPermutation => "state order is not a permutation of the state ids"

namespace Graph

variable {W : Type}

def empty : Graph W := {}

def size (graph : Graph W) : Nat := graph.states.size

/-- The most states that a 32-bit word counts. -/
def maxSize : Nat := 2 ^ 32 - 1

/-- The number of states fits in a 32-bit word. -/
def Counted (graph : Graph W) : Prop := graph.size ≤ maxSize

instance (graph : Graph W) : Decidable graph.Counted := inferInstanceAs (Decidable (graph.size ≤ maxSize))

/-- The states in order, as far as the number of them in a 32-bit word goes. -/
def ids (graph : Graph W) : List StateId := List.range (UInt32.ofNat graph.size).toNat

theorem Counted.ids_eq {graph : Graph W} (counted : graph.Counted) : graph.ids = List.range graph.size := by
  have fits : graph.size < 2 ^ 32 := Nat.lt_of_le_of_lt counted (by decide)
  rw [ids, UInt32.toNat_ofNat_of_lt' fits]

def state (graph : Graph W) (s : StateId) : Except GraphError (State W) :=
  match graph.states[s]? with
  | some state => .ok state
  | none => .error (.invalidState s)

def final (graph : Graph W) (s : StateId) : Except GraphError (Option W) :=
  return (← graph.state s).final

def isFinal (graph : Graph W) (s : StateId) : Except GraphError Bool :=
  return (← graph.final s).isSome

def arcs (graph : Graph W) (s : StateId) : Except GraphError (Array (Arc W)) :=
  return (← graph.state s).arcs

def arcCount (graph : Graph W) (s : StateId) : Except GraphError Nat :=
  return (← graph.arcs s).size

/-- The arcs of a state, none if there is no such state. -/
def arcsFrom (graph : Graph W) (s : StateId) : List (Arc W) :=
  match graph.states[s]? with
  | some state => state.arcs.toList
  | none => []

def totalArcs (graph : Graph W) : Nat := (graph.states.map fun state => state.arcs.size).sum

/-- Every arc leads from a smaller to a larger number. -/
def isSorted (graph : Graph W) : Bool :=
  graph.states.zipIdx.all fun (state, s) => state.arcs.all fun arc => s < arc.target

structure WellFormed (graph : Graph W) : Prop where
  start : ∀ s, graph.start = some s → s < graph.size
  targets : ∀ state ∈ graph.states, ∀ arc ∈ state.arcs, arc.target < graph.size

variable [Weight W]

/-- Equality of graphs compares weights as their type does. -/
def Arc.equal (first second : Arc W) : Bool :=
  first.input == second.input && first.output == second.output
    && Weight.equal first.weight second.weight && first.target == second.target

def finalEqual : Option W → Option W → Bool
  | some first, some second => Weight.equal first second
  | none, none => true
  | _, _ => false

def State.equal (first second : State W) : Bool :=
  finalEqual first.final second.final && first.arcs.isEqv second.arcs Arc.equal

def equal (first second : Graph W) : Bool :=
  first.start == second.start && first.states.isEqv second.states State.equal

end Graph

end Transducer
