import Transducer.Container.TypedGraph
import Transducer.Proofs.ContainerReading

/-! A graph that is written and read again comes back as it was, whether its weight type is known or is only
found in the stored bytes. -/

namespace Transducer

section Graph

variable {W : Type} [Weight W] [StoredWeight W] {graph : Graph W} {data : Bytes}

theorem Graph.peekTypeName_of_spells (named : Nameable (Weight.typeName W)) (formed : graph.WellFormed)
    (storable : graph.Storable) (spelled : Spells graph.fields data []) :
    Header.peekTypeName data = .ok (Weight.typeName W) := by
  obtain ⟨reserved, rest, bound, rfl, _⟩ := spells_fields.mp spelled
  exact Header.peekTypeName_ok.mpr ⟨_, rest, header_bounded formed storable bound, named, rfl⟩

/-- What is written of a graph is a spelling of it, so it is read as the graph. -/
theorem Graph.written_reads (named : Nameable (Weight.typeName W)) (formed : graph.WellFormed)
    (storable : graph.Storable) : graph.encode = .ok (written graph.fields) ∧
      Spells graph.fields (written graph.fields) [] ∧ Graph.decode (written graph.fields) = .ok graph := by
  have spelled : Spells graph.fields (written graph.fields) [] := by
    simpa using spells_written graph.fields []
  exact ⟨encode_ok.mpr ⟨named, storable.states, rfl⟩, spelled, decode_ok.mpr ⟨named, formed, storable, spelled⟩⟩

end Graph

namespace BuiltIn

theorem mem_all (type : BuiltIn) : type ∈ all := by
  rcases type with (_ | _) | (_ | _) | (_ | _) | (_ | _) | _ | (_ | _) <;> decide

theorem ofName?_name (type : BuiltIn) : ofName? type.name = some type := by
  have known : ∀ type ∈ all, ofName? type.name = some type := by decide
  exact known type type.mem_all

theorem size_name (type : BuiltIn) : type.name.utf8ByteSize + 3 ≤ 16 := by
  have short : ∀ type ∈ all, type.name.utf8ByteSize + 3 ≤ 16 := by decide
  exact short type type.mem_all

end BuiltIn

namespace WeightType

/-- The built-in types that a type is made of, each as often as it stands there. -/
def parts : WeightType → Nat
  | builtIn _ => 1
  | product first second => first.parts + second.parts

theorem size_typeName (type : WeightType) : (Weight.typeName type.Carrier).utf8ByteSize + 3 ≤ 16 * type.parts := by
  induction type with
  | builtIn type => exact type.size_name
  | product first second ihFirst ihSecond =>
    have joined : (Weight.typeName (product first second).Carrier).utf8ByteSize =
        (Weight.typeName first.Carrier).utf8ByteSize + 3 + (Weight.typeName second.Carrier).utf8ByteSize := by
      change (Weight.typeName first.Carrier ++ "_X_" ++ Weight.typeName second.Carrier).utf8ByteSize = _
      rw [String.utf8ByteSize_append, String.utf8ByteSize_append]
      rfl
    rw [joined, parts]
    omega

theorem nameable (type : WeightType) (few : type.parts ≤ 2 ^ 28) : Nameable (Weight.typeName type.Carrier) := by
  have size := type.size_typeName
  rw [Nameable, Text.encode, String.ofList_toList]
  change (Weight.typeName type.Carrier).utf8ByteSize < 2 ^ 32
  omega

end WeightType

theorem BuiltIn.nameable (type : BuiltIn) : Nameable (Weight.typeName type.Carrier) := by
  apply (WeightType.builtIn type).nameable
  rw [WeightType.parts]
  omega

/-- Writing a graph that fits succeeds and reading gives it back, exactly and over the same weight type. The
name of the type has to fit as well, and with up to 2 ^ 28 parts it does. -/
theorem writing_reads_back :
    (∀ (type : WeightType) (graph : Graph type.Carrier), Nameable (Weight.typeName type.Carrier) →
      graph.WellFormed → graph.Storable → ∃ bytes, graph.encode = .ok bytes ∧ Graph.decode bytes = .ok graph) ∧
    (∀ type : WeightType, type.parts ≤ 2 ^ 28 → Nameable (Weight.typeName type.Carrier)) ∧
    (∀ typed : TypedGraph, typed.graph.WellFormed → typed.graph.Storable →
      ∃ bytes, typed.encode = .ok bytes ∧ TypedGraph.decode bytes = .ok typed) := by
  refine ⟨fun type graph named formed storable => ?_, WeightType.nameable, fun typed formed storable => ?_⟩
  · obtain ⟨encoded, _, decoded⟩ := Graph.written_reads named formed storable
    exact ⟨_, encoded, decoded⟩
  · obtain ⟨type, graph⟩ := typed
    obtain ⟨encoded, spelled, decoded⟩ := Graph.written_reads type.nameable formed storable
    have peeked := Graph.peekTypeName_of_spells type.nameable formed storable spelled
    refine ⟨_, encoded, ?_⟩
    simp only [TypedGraph.decode, except_bind_ok]
    refine ⟨_, peeked, ?_⟩
    have known : BuiltIn.ofName? (Weight.typeName type.Carrier) = some type := type.ofName?_name
    rw [known]
    exact except_bind_ok.mpr ⟨graph, decoded, rfl⟩

/-- A graph whose weights are a string beside a pair of numbers. -/
def stringPairs : Graph (WeightType.product (.builtIn (.labelString .left))
    (.product (.builtIn (.signedLog .single)) (.builtIn (.tropical .double)))).Carrier where
  start := some 1
  states := #[{ final := some ⟨.labels [7, 8], .zero, ⟨.zero⟩⟩ }, { arcs := #[⟨1, 2, ⟨.infinity, .one, ⟨.nan⟩⟩, 0⟩] }]

theorem stringPairs_storable : stringPairs.Storable := by
  refine ⟨by decide, fun state member => ?_⟩
  obtain rfl | rfl : state = _ ∨ state = _ := by simpa [stringPairs] using member
  · refine ⟨?_, by decide, by simp⟩
    intro weight equal
    cases equal
    exact ⟨(by decide : [7, 8].length ≤ LabelString.maxLength), trivial, trivial⟩
  · refine ⟨by simp, by decide, fun arc inside => ?_⟩
    obtain rfl : arc = _ := by simpa using inside
    exact ⟨Nat.zero_le _, trivial, trivial⟩

def loop : Graph Boolean where
  start := some 0
  states := #[{ final := some .zero, arcs := #[⟨3, 0, .one, 0⟩] }]

theorem loop_storable : loop.Storable := by
  refine ⟨by decide, fun state member => ?_⟩
  obtain rfl : state = _ := by simpa [loop] using member
  exact ⟨fun _ _ => trivial, by decide, fun _ _ => trivial⟩

theorem samples_read_back :
    (∃ bytes, stringPairs.encode = .ok bytes ∧ Graph.decode bytes = .ok stringPairs) ∧
    ∃ bytes, (⟨.boolean, loop⟩ : TypedGraph).encode = .ok bytes ∧ TypedGraph.decode bytes = .ok ⟨.boolean, loop⟩ :=
  ⟨writing_reads_back.1 _ stringPairs (by decide) ⟨by rintro s ⟨⟩; decide, by decide⟩ stringPairs_storable,
    writing_reads_back.2.2 ⟨.boolean, loop⟩ ⟨by rintro s ⟨⟩; decide, by decide⟩ loop_storable⟩

end Transducer
