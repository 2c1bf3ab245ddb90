import Mathlib.Algebra.Order.BigOperators.Group.List
import Mathlib.Algebra.Order.Group.Nat
import Transducer.Proofs.GraphSpelling

/-! When stored bytes are read as a graph. The reader takes a graph that is well formed from every spelling of
its fields, and from nothing else. -/

namespace Transducer

variable {W : Type} {graph : Graph W} {input rest : Bytes}

namespace Graph

theorem totalArcs_le {most : Nat} (bounded : ∀ state ∈ graph.states, state.arcs.size ≤ most) :
    graph.totalArcs ≤ graph.size * most := by
  have bounded : ∀ count ∈ graph.states.toList.map fun state => state.arcs.size, count ≤ most := by
    simpa using bounded
  have total := List.sum_le_card_nsmul _ most bounded
  rw [totalArcs, ← Array.sum_toList, Array.toList_map]
  simpa [size] using total

theorem header_startState? (formed : graph.WellFormed) (few : graph.size ≤ Header.noStart) :
    graph.header.startState? = graph.start := by
  unfold Header.startState? header
  cases start : graph.start with
  | none => rfl
  | some s => exact if_neg (Nat.ne_of_lt (Nat.lt_of_lt_of_le (formed.start s start) few))

end Graph

variable [Weight W] [StoredWeight W]

namespace Text

theorem fromUTF8?_iff {bytes : ByteArray} {string : String} :
    String.fromUTF8? bytes = some string ↔ bytes = string.toUTF8 := by
  constructor
  · intro decoded
    unfold String.fromUTF8? at decoded
    split at decoded
    next valid =>
      obtain rfl := Option.some.inj decoded
      rfl
    next => cases decoded
  · intro same
    subst same
    exact dif_pos string.isValidUTF8

/-- Text is read from the bytes that encode it and from no others. -/
theorem decode?_iff {bytes : Bytes} {text : List Char} : decode? bytes = some text ↔ bytes = encode text := by
  rw [decode?, encode, Option.map_eq_some_iff]
  constructor
  · intro given
    obtain ⟨string, decoded, rfl⟩ := given
    rw [String.ofList_toList, ← fromUTF8?_iff.mp decoded]
  · intro same
    subst same
    exact ⟨String.ofList text, fromUTF8?_iff.mpr rfl, String.toList_ofList⟩

end Text

namespace Header

structure Bounded (header : Header) : Prop where
  start : header.start < 256 ^ 4
  reserved : header.reserved < 256 ^ 4
  states : header.states < 256 ^ 8
  arcs : header.arcs < 256 ^ 8

theorem read_ok {header : Header} :
    Header.read input = .ok (header, rest) ↔ header.Bounded ∧ input = header.encode ++ rest := by
  simp only [Header.read, Parser.bind_ok, Parser.get_ok, Parser.check_ok, Reader.word_ok, Parser.pure_ok, ne_eq,
    Decidable.not_not]
  constructor
  · intro given
    obtain ⟨_, _, ⟨rfl, rfl⟩, _, _, _, ⟨_, rfl⟩, _, _, ⟨_, rfl⟩, rfl, rfl, start, _, ⟨startFits, rfl⟩,
      reserved, _, ⟨reservedFits, rfl⟩, states, _, ⟨statesFit, rfl⟩, arcs, _, ⟨arcsFit, rfl⟩, rfl, rfl⟩ := given
    exact ⟨⟨startFits, reservedFits, statesFit, arcsFit⟩, by simp [encode]⟩
  · intro given
    obtain ⟨⟨start, reserved, states, arcs⟩, rfl⟩ := given
    have long : ¬ (header.encode ++ rest).length < size := by
      simp only [encode, size, List.length_append, Bytes.length_ofWord]
      omega
    have spelled : header.encode ++ rest = .ofWord 4 magic ++ (.ofWord 4 version ++ (.ofWord 4 header.start ++
        (.ofWord 4 header.reserved ++ (.ofWord 8 header.states ++ (.ofWord 8 header.arcs ++ rest))))) := by
      simp [encode]
    refine ⟨_, _, ⟨rfl, rfl⟩, long, magic, _, ⟨by decide, spelled⟩, version, _, ⟨by decide, rfl⟩, rfl, rfl, ?_⟩
    refine ⟨header.start, _, ⟨start, rfl⟩, header.reserved, _, ⟨reserved, rfl⟩, ?_⟩
    exact ⟨header.states, _, ⟨states, rfl⟩, header.arcs, _, ⟨arcs, rfl⟩, rfl, rfl⟩

theorem readTypeName_ok {name : String} : Header.readTypeName input = .ok (name, rest) ↔
    Nameable name ∧ input = typeNameBytes name ++ rest := by
  simp only [Header.readTypeName, Parser.bind_ok, Reader.word_ok, Reader.ofDecoder_ok, Decoder.take_ok]
  constructor
  · intro given
    obtain ⟨length, _, ⟨bound, rfl⟩, bytes, _, ⟨rfl, rfl⟩, taken⟩ := given
    cases decoded : Text.decode? bytes with
    | none =>
      rw [decoded] at taken
      exact (Parser.throw_ok taken).elim
    | some text =>
      rw [decoded] at taken
      obtain ⟨rfl, rfl⟩ := Parser.pure_ok.mp taken
      obtain rfl := Text.decode?_iff.mp decoded
      exact ⟨by simpa [Nameable] using bound, by simp [typeNameBytes]⟩
  · intro given
    obtain ⟨bound, rfl⟩ := given
    refine ⟨_, _, ⟨bound, by rw [typeNameBytes, List.append_assoc]⟩, _, _, ⟨rfl, rfl⟩, ?_⟩
    rw [Text.decode?_iff.mpr rfl]
    exact Parser.pure_ok.mpr ⟨String.ofList_toList, rfl⟩

theorem startState?_getD (header : Header) : header.startState?.getD noStart = header.start := by
  unfold startState?
  split
  next same => exact same.symm
  next => rfl

end Header

namespace Reader

theorem weightType_ok {expected : String} {done : Unit} : Reader.weightType expected input = .ok (done, rest) ↔
    Nameable expected ∧ input = typeNameBytes expected ++ rest := by
  simp only [Reader.weightType, Parser.bind_ok, Parser.ite_ok, Parser.throw_ok, Parser.pure_ok, Header.readTypeName_ok]
  constructor
  · intro given
    obtain ⟨actual, _, ⟨bound, rfl⟩, ⟨_, ⟨⟩⟩ | ⟨same, _, rfl⟩⟩ := given
    obtain rfl := Decidable.not_not.mp same
    exact ⟨bound, rfl⟩
  · intro given
    obtain ⟨bound, rfl⟩ := given
    exact ⟨expected, rest, ⟨bound, rfl⟩, .inr ⟨by simp, trivial, rfl⟩⟩

theorem stateCount_ok {header : Header} {size : Nat} : Reader.stateCount header input = .ok (size, rest) ↔
    (size = header.states ∧ header.states ≤ Header.noStart) ∧ header.states ≤ input.length / leastStateSize ∧
      input = rest := by
  simp only [Reader.stateCount, Parser.bind_ok, Parser.get_ok, Parser.check_ok, Parser.pure_ok, Nat.not_lt]
  constructor
  · intro given
    obtain ⟨_, _, ⟨rfl, rfl⟩, room, few, rfl, rfl⟩ := given
    exact ⟨⟨rfl, few⟩, room, rfl⟩
  · intro given
    obtain ⟨⟨rfl, few⟩, room, rfl⟩ := given
    exact ⟨_, _, ⟨rfl, rfl⟩, room, few, rfl, rfl⟩

theorem start_ok {header : Header} {start : Option StateId} : Reader.start header input = .ok (start, rest) ↔
    (start = header.startState? ∧ ∀ s ∈ header.startState?, s < header.states) ∧ input = rest := by
  unfold Reader.start
  cases header.startState? with
  | none =>
    rw [Parser.pure_ok]
    simp [eq_comm]
  | some s =>
    rw [Parser.ite_ok, Parser.pure_ok]
    simp only [Parser.throw_ok, and_false, or_false, Option.mem_def, Option.some.injEq, forall_eq']
    rw [← and_assoc, and_comm (a := s < header.states), eq_comm (a := some s)]

end Reader

namespace Graph

theorem spells_fields : Spells graph.fields input rest ↔ ∃ reserved middle, reserved < 256 ^ 4 ∧
    input = { graph.header with reserved }.encode ++ (typeNameBytes (Weight.typeName W) ++ middle) ∧
    Spells (graph.states.toList.flatMap State.fields) middle rest := by
  simp only [fields, spells_exact, spells_reserved]
  constructor
  · intro given
    obtain ⟨_, rfl, reserved, _, bound, rfl, _, rfl, middle, rfl, spelled⟩ := given
    exact ⟨reserved, middle, bound, by simp [Header.encode, header], spelled⟩
  · intro given
    obtain ⟨reserved, middle, bound, rfl, spelled⟩ := given
    exact ⟨_, by simp [Header.encode, header], reserved, _, bound, rfl, _, rfl, middle, rfl, spelled⟩

theorem leastStateSize_le (state : State W) : leastStateSize ≤ (written state.fields).length := by
  have marker : 1 ≤ (written (finalFields state.final)).length := by
    cases state.final <;> simp [finalFields, written, Field.written]
  have count : 4 ≤ (written (.exact (.ofWord 4 state.arcs.size) :: state.arcs.toList.flatMap Arc.fields)).length := by
    simp [written, Field.written, Bytes.length_ofWord]
  rw [State.fields, written_append, List.length_append]
  exact Nat.add_le_add marker count

theorem length_written_states (states : List (State W)) :
    leastStateSize * states.length ≤ (written (states.flatMap State.fields)).length := by
  induction states with
  | nil => exact Nat.zero_le _
  | cons state states ih =>
    have least := leastStateSize_le state
    rw [List.flatMap_cons, written_append, List.length_append, List.length_cons, Nat.mul_succ]
    omega

theorem header_bounded (formed : graph.WellFormed) (storable : graph.Storable) {reserved : Nat}
    (bound : reserved < 256 ^ 4) : ({ graph.header with reserved } : Header).Bounded := by
  have few : graph.size < 2 ^ 32 := Nat.lt_of_le_of_lt storable.size (by decide)
  constructor
  case start =>
    cases start : graph.start with
    | none => simp [header, start, Header.noStart]
    | some s =>
      have inside := Nat.lt_trans (formed.start s start) few
      simpa [header, start] using inside
  case reserved => exact bound
  case states => exact Nat.lt_trans few (by decide)
  case arcs =>
    have most : graph.totalArcs ≤ graph.size * 2 ^ 32 :=
      totalArcs_le fun state member => Nat.le_of_lt (storable.states state member).count
    have room : graph.size * 2 ^ 32 < 256 ^ 8 := by omega
    exact Nat.lt_of_le_of_lt most room

end Graph

/-- Reading takes the whole input. -/
theorem Reader.graph_ok : Reader.graph input = .ok (graph, rest) ↔
    rest = [] ∧ Nameable (Weight.typeName W) ∧ graph.WellFormed ∧ graph.Storable ∧ Spells graph.fields input [] := by
  simp only [Reader.graph, Parser.bind_ok, Header.read_ok, weightType_ok, stateCount_ok, start_ok, Parser.check_ok,
    Parser.get_ok]
  constructor
  · intro given
    obtain ⟨header, _, ⟨bounded, rfl⟩, _, _, ⟨name, rfl⟩, _, middle, ⟨⟨rfl, few⟩, _, rfl⟩, _, _,
      ⟨⟨rfl, startInside⟩, rfl⟩, states, last, taken, totals, _, _, ⟨rfl, rfl⟩, ending⟩ := given
    cases last with
    | cons byte last => cases ending
    | nil =>
      obtain ⟨rfl, rfl⟩ := Parser.pure_ok.mp ending
      obtain ⟨sized, all, spelled⟩ := (states_ok few).mp taken
      have size : Graph.size { start := header.startState?, states : Graph W } = header.states := sized
      have formed : Graph.WellFormed { start := header.startState?, states : Graph W } :=
        ⟨fun s start => size ▸ startInside s start, fun state member => size ▸ (all state member).2⟩
      have storable : Graph.Storable { start := header.startState?, states : Graph W } :=
        ⟨size ▸ few, fun state member => (all state member).1⟩
      refine ⟨rfl, name, formed, storable, ?_⟩
      apply Graph.spells_fields.mpr ⟨header.reserved, _, bounded.reserved, ?_, spelled⟩
      rw [Graph.header, size, header.startState?_getD, Decidable.not_not.mp totals]
  · intro given
    obtain ⟨rfl, name, formed, storable, spelled⟩ := given
    obtain ⟨reserved, middle, bound, rfl, states⟩ := Graph.spells_fields.mp spelled
    have room : graph.size ≤ middle.length / leastStateSize := by
      rw [Nat.le_div_iff_mul_le (by decide), states.length, Nat.mul_comm]
      exact Graph.length_written_states graph.states.toList
    have bounded := Graph.header_bounded formed storable bound
    have start := Graph.header_startState? formed storable.size
    have all (state : State W) (member : state ∈ graph.states) :
        state.Storable ∧ ∀ arc ∈ state.arcs, arc.target < graph.size :=
      ⟨storable.states state member, formed.targets state member⟩
    refine ⟨{ graph.header with reserved }, _, ⟨bounded, rfl⟩, (), _, ⟨name, rfl⟩, ?_⟩
    refine ⟨graph.size, middle, ⟨⟨rfl, storable.size⟩, room, rfl⟩, ?_⟩
    refine ⟨graph.start, middle, ⟨⟨start.symm, fun s found => formed.start s (start ▸ found)⟩, rfl⟩, ?_⟩
    refine ⟨graph.states, [], (states_ok storable.size).mpr ⟨rfl, all, states⟩, Decidable.not_not.mpr rfl, ?_⟩
    exact ⟨[], [], ⟨rfl, rfl⟩, rfl⟩

theorem Graph.decode_ok : Graph.decode input = .ok graph ↔
    Nameable (Weight.typeName W) ∧ graph.WellFormed ∧ graph.Storable ∧ Spells graph.fields input [] := by
  apply Parser.run'_ok.trans
  simp only [Reader.graph_ok, exists_eq_left]

/-- The name of the weight type is the one that every graph of the type is spelled with. -/
theorem Header.peekTypeName_ok {name : String} : Header.peekTypeName input = .ok name ↔
    ∃ header rest, Header.Bounded header ∧ Nameable name ∧ input = header.encode ++ (typeNameBytes name ++ rest) := by
  apply Parser.run'_ok.trans
  simp only [Parser.bind_ok, Parser.discard_ok, Header.read_ok, Header.readTypeName_ok]
  constructor
  · intro given
    obtain ⟨rest, _, _, ⟨header, bounded, rfl⟩, named, rfl⟩ := given
    exact ⟨header, rest, bounded, named, rfl⟩
  · intro given
    obtain ⟨header, rest, bounded, named, rfl⟩ := given
    exact ⟨rest, (), _, ⟨header, bounded, rfl⟩, named, rfl⟩

end Transducer
