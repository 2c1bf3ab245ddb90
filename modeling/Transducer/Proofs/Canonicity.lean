import Transducer.Proofs.CheckedReading
import Transducer.Proofs.ReadingErrors
import Transducer.Proofs.RoundTrip

/-! Whatever bytes are read as a graph, they are what is written of it, but for words that nothing looks at and
the signs of signed logarithms of zero. Bytes that are refused are refused for what they are. -/

namespace Transducer

section Graph

variable {W : Type} [Weight W] [StoredWeight W] {graph : Graph W} {data : Bytes}

theorem Graph.read_header (formed : graph.WellFormed) (storable : graph.Storable)
    (spelled : Spells graph.fields data []) :
    ∃ header rest, Header.read data = .ok (header, rest) ∧ header.startState? = graph.start ∧
      header.states = graph.size ∧ header.arcs = graph.totalArcs := by
  obtain ⟨reserved, rest, bound, rfl, _⟩ := spells_fields.mp spelled
  exact ⟨_, _, Header.read_ok.mpr ⟨header_bounded formed storable bound, rfl⟩,
    header_startState? formed storable.size, rfl, rfl⟩

end Graph

/-- Any bytes are refused for what they are, or they spell a well-formed graph. Then what is written of the
graph is as long and differs at most in the reserved words and in the signs of signed logarithms of zero. The
graph never refuses what is read for it. -/
theorem decoding_settles (type : WeightType) (data : Bytes) :
    (Graph.decodeChecked data : Except ReadError (Graph type.Carrier)) = Graph.decode data ∧
    ((∃ error, (Graph.decode data : Except ReadError (Graph type.Carrier)) = .error error ∧ error.OfBytes) ∨
    ∃ (graph : Graph type.Carrier) (header : Header) (rest bytes : Bytes),
      Graph.decode data = .ok graph ∧ graph.WellFormed ∧
      Header.read data = .ok (header, rest) ∧ header.startState? = graph.start ∧ header.states = graph.size ∧
      header.arcs = graph.totalArcs ∧ Header.peekTypeName data = .ok (Weight.typeName type.Carrier) ∧
      graph.encode = .ok bytes ∧ bytes.length = data.length ∧
      bytes = written graph.fields ∧ Spells graph.fields data []) := by
  refine ⟨Graph.decodeChecked_eq data, ?_⟩
  cases decoded : (Graph.decode data : Except ReadError (Graph type.Carrier)) with
  | error error => exact .inl ⟨error, rfl, Graph.decode_raises type.decode_raises decoded⟩
  | ok graph =>
    obtain ⟨named, formed, storable, spelled⟩ := Graph.decode_ok.mp decoded
    obtain ⟨header, rest, read, start, states, arcs⟩ := Graph.read_header formed storable spelled
    have encoded : graph.encode = .ok (written graph.fields) := Graph.encode_ok.mpr ⟨named, storable.states, rfl⟩
    refine .inr ⟨graph, header, rest, _, rfl, formed, read, start, states, arcs, ?_, encoded, ?_, rfl, spelled⟩
    · exact Graph.peekTypeName_of_spells named formed storable spelled
    · exact spelled.length.symm

end Transducer
