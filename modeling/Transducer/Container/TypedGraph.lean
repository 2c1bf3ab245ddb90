import Transducer.Container.Read
import Transducer.Container.Write
import Transducer.Graph.TopOrder
import Transducer.Listing.Compile
import Transducer.Listing.Print
import Transducer.Weight.Catalog

/-! Graphs over a weight type that is known only once they are read. Stored bytes name their weight
type, and a listing is read with a name beside it. -/

namespace Transducer

structure TypedGraph where
  type : BuiltIn
  graph : Graph type.Carrier

inductive CompileError where
  | unknownWeightType (name : String)
  | listing (error : ListingError)
deriving DecidableEq, Repr

def CompileError.message : CompileError → String
  | unknownWeightType name => (ReadError.unknownWeightType name).message
  | listing error => error.message

namespace TypedGraph

def decode (input : Bytes) : Except ReadError TypedGraph := do
  let name ← Header.peekTypeName input
  match BuiltIn.ofName? name with
  | some type => return ⟨type, ← Graph.decode input⟩
  | none => throw (.unknownWeightType name)

def ofListing (name : String) (tables : LabelTables) (text : List Char) :
    Except CompileError TypedGraph :=
  match BuiltIn.ofName? name with
  | some type => return ⟨type, ← (Graph.ofListing tables text).mapError .listing⟩
  | none => throw (.unknownWeightType name)

def encode (typed : TypedGraph) : Except WriteError Bytes := typed.graph.encode

def toListing (typed : TypedGraph) (tables : LabelTables) : Except PrintError (List Char) :=
  typed.graph.toListing tables

def sorted? (typed : TypedGraph) : Except GraphError (Option TypedGraph) :=
  return (← typed.graph.sorted?).map fun graph => { typed with graph }

def equal (first second : TypedGraph) : Bool :=
  if same : first.type = second.type then first.graph.equal (same ▸ second.graph) else false

end TypedGraph

end Transducer
