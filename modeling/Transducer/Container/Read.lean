import Transducer.Container.Header
import Transducer.Graph.Basic

/-! Graphs from bytes. Reading accepts only what describes a well-formed graph to the last byte. -/

namespace Transducer

/-- A state takes at least a marker and a count. -/
def leastStateSize : Nat := 5

namespace Reader

variable {W : Type} [Weight W]

def label : Reader Label := return UInt32.ofNat (← word 4)

def weight : Reader W := ofDecoder Weight.decode

/-- An arc of a state in a graph of so many states. -/
def arc (size source : Nat) : Reader (Arc W) := do
  let input ← label
  let output ← label
  let target ← word 4
  discard (word 4)
  let weight ← weight
  if size ≤ target then throw (.corrupt (.missingTarget source target))
  return { input, output, weight, target }

/-- So many arcs after those already read. -/
def arcs (size source : Nat) (read : Array (Arc W)) : Nat → Reader (Array (Arc W))
  | 0 => return read
  | count + 1 => do arcs size source (read.push (← arc size source)) count

def final (source : Nat) : Reader (Option W) := do
  let marker ← word 1
  match marker with
  | 0 => return none
  | 1 => return some (← weight)
  | _ => throw (.corrupt (.finalMarker (UInt8.ofNat marker) source))

def state (size source : Nat) : Reader (State W) := do
  let final ← final source
  let count ← word 4
  return { final, arcs := ← arcs size source #[] count }

/-- So many states after those already read. -/
def states (size : Nat) (read : Array (State W)) : Nat → Reader (Array (State W))
  | 0 => return read
  | count + 1 => do states size (read.push (← state size read.size)) count

/-- The size that a header declares, if the input may hold so many states. -/
def stateCount (header : Header) : Reader Nat := do
  if (← get).length / leastStateSize < header.states then throw .truncated
  if Header.noStart < header.states then throw (.corrupt (.stateCount header.states))
  return header.states

def start (header : Header) : Reader (Option StateId) :=
  match header.startState? with
  | none => return none
  | some start =>
    if start < header.states then return some start else throw (.corrupt (.start start))

def weightType (expected : String) : Reader Unit := do
  let actual ← Header.readTypeName
  if actual ≠ expected then throw (.weightTypeMismatch expected actual)

def graph : Reader (Graph W) := do
  let header ← Header.read
  weightType (Weight.typeName W)
  let size ← stateCount header
  let start ← start header
  let states ← states size #[] size
  let graph : Graph W := { start, states }
  if graph.totalArcs ≠ header.arcs then throw (.corrupt (.arcCount header.arcs graph.totalArcs))
  match (← get).length with
  | 0 => return graph
  | count => throw (.corrupt (.trailing count))

end Reader

def Graph.decode {W : Type} [Weight W] (input : Bytes) : Except ReadError (Graph W) :=
  Reader.graph.run' input

end Transducer
