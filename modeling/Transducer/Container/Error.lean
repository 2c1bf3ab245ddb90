import Transducer.Graph.Basic
import Transducer.Text.Numeral
import Transducer.Text.Quoted

/-! What is wrong with stored bytes, and with graphs that cannot be stored. -/

namespace Transducer

/-- Bytes that are all there but describe no graph. -/
inductive Corruption where
  | weightTypeText
  | stateCount (declared : Nat)
  | start (state : Nat)
  | finalMarker (marker : UInt8) (state : Nat)
  | missingTarget (source target : Nat)
  | arcCount (declared found : Nat)
  | trailing (count : Nat)
  | weight (reason : String)
deriving DecidableEq, Repr

def Corruption.message : Corruption → String
  | weightTypeText => "weight type is not valid UTF-8"
  | stateCount declared => s!"{declared} states exceed the state id range"
  | start state => s!"start state {state} out of range"
  | finalMarker marker state =>
    "invalid final marker 0x" ++ String.ofList (Numeral.hexByte marker) ++ s!" for state {state}"
  | missingTarget source target => s!"arc from state {source} to missing state {target}"
  | arcCount declared found => s!"header declares {declared} arcs, found {found}"
  | trailing count => s!"{count} trailing bytes"
  | weight reason => reason

inductive ReadError where
  | tooShort (expected actual : Nat)
  | invalidMagic
  | unsupportedVersion (version : Nat)
  | truncated
  | corrupt (corruption : Corruption)
  | unknownWeightType (name : String)
  | weightTypeMismatch (expected actual : String)
  /-- A change of the graph that is read is refused. -/
  | graph (error : GraphError)
  | stream (reason : String)
deriving DecidableEq, Repr

namespace ReadError

def message : ReadError → String
  | tooShort expected actual => s!"file too short: expected at least {expected} bytes, got {actual}"
  | invalidMagic => "invalid magic number in transducer header"
  | unsupportedVersion version => s!"unsupported format version {version}"
  | truncated => "truncated transducer data"
  | corrupt corruption => "corrupt transducer data: " ++ corruption.message
  | unknownWeightType name => "unknown weight type " ++ String.ofList (Text.quoted name.toList)
  | weightTypeMismatch expected actual =>
    "weight type mismatch: expected " ++ expected ++ ", got " ++ actual
  | graph error => error.message
  | stream reason => reason

def ofDecode : DecodeError → ReadError
  | .endOfInput => truncated
  | .invalid reason => corrupt (.weight reason)
  | .stream reason => stream reason

end ReadError

inductive WriteError where
  | weight (error : EncodeError)
  /-- A state has more arcs, or the name of the weight type more bytes, than a word can count. -/
  | tooManyArcs (count : Nat)
deriving DecidableEq, Repr

def WriteError.message : WriteError → String
  | weight error => error.message
  | tooManyArcs count => s!"corrupt transducer data: length {count} does not fit in 32 bits"

end Transducer
