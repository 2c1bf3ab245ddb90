import Transducer.Container.Header
import Transducer.Graph.Basic

/-! Graphs as bytes. After the header come the states in order, each with a marker, its final weight if
it has one, and its arcs behind their count. -/

namespace Transducer

variable {W : Type} [Weight W]

def Graph.header (graph : Graph W) : Header where
  start := graph.start.getD Header.noStart
  reserved := 0
  states := graph.size
  arcs := graph.totalArcs

def encodeWeight (weight : W) : Except WriteError Bytes := (Weight.encode weight).mapError .weight

def encodeFinal : Option W → Except WriteError Bytes
  | none => return [0]
  | some weight => return 1 :: (← encodeWeight weight)

def Arc.encode (arc : Arc W) : Except WriteError Bytes := do
  return .ofWord 4 arc.input.toNat ++ .ofWord 4 arc.output.toNat ++ .ofWord 4 arc.target ++ .ofWord 4 0
    ++ (← encodeWeight arc.weight)

def encodeCount (count : Nat) : Except WriteError Bytes :=
  if count < 2 ^ 32 then .ok (.ofWord 4 count) else .error (.tooManyArcs count)

def encodeTypeName (name : String) : Except WriteError Bytes := do
  let bytes := Text.encode name.toList
  return (← encodeCount bytes.length) ++ bytes

def State.encode (state : State W) : Except WriteError Bytes := do
  let final ← encodeFinal state.final
  let count ← encodeCount state.arcs.size
  let arcs ← state.arcs.toList.mapM Arc.encode
  return final ++ count ++ arcs.flatten

def Graph.encode (graph : Graph W) : Except WriteError Bytes := do
  let name ← encodeTypeName (Weight.typeName W)
  let states ← graph.states.toList.mapM State.encode
  return graph.header.encode ++ name ++ states.flatten

end Transducer
