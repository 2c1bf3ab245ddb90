import Transducer.Container.Read
import Transducer.Container.Write
import Transducer.Proofs.WeightSpelling

/-! How graphs are spelled. What is written of a graph is a row of fields, and each reader takes exactly the
spellings of the part that it reads. -/

namespace Transducer

variable {W : Type} [Weight W] [StoredWeight W] {input rest bytes : Bytes}

def finalFields : Option W → List Field
  | none => [.exact [0]]
  | some weight => .exact [1] :: StoredWeight.fields weight

def Arc.fields (arc : Arc W) : List Field :=
  .exact (.ofWord 4 arc.input.toNat ++ .ofWord 4 arc.output.toNat ++ .ofWord 4 arc.target) :: .reserved ::
    StoredWeight.fields arc.weight

def State.fields (state : State W) : List Field :=
  finalFields state.final ++ .exact (.ofWord 4 state.arcs.size) :: state.arcs.toList.flatMap Arc.fields

def typeNameBytes (name : String) : Bytes :=
  let bytes := Text.encode name.toList
  .ofWord 4 bytes.length ++ bytes

def Graph.fields (graph : Graph W) : List Field :=
  .exact (.ofWord 4 Header.magic ++ .ofWord 4 Header.version ++ .ofWord 4 (graph.start.getD Header.noStart)) ::
    .reserved :: .exact (.ofWord 8 graph.size ++ .ofWord 8 graph.totalArcs) ::
    .exact (typeNameBytes (Weight.typeName W)) :: graph.states.toList.flatMap State.fields

structure State.Storable (state : State W) : Prop where
  final : ∀ weight ∈ state.final, StoredWeight.Fits weight
  count : state.arcs.size < 2 ^ 32
  weights : ∀ arc ∈ state.arcs, StoredWeight.Fits arc.weight

/-- Nothing in the graph is too great for its place in the stored form. -/
structure Graph.Storable (graph : Graph W) : Prop where
  size : graph.size ≤ Header.noStart
  states : ∀ state ∈ graph.states, state.Storable

/-- A name is written behind its length, which has four bytes. -/
def Nameable (name : String) : Prop := (Text.encode name.toList).length < 2 ^ 32

instance (name : String) : Decidable (Nameable name) := inferInstanceAs (Decidable (_ < _))

theorem encodeWeight_ok {w : W} :
    encodeWeight w = .ok bytes ↔ StoredWeight.Fits w ∧ bytes = written (StoredWeight.fields w) := by
  rw [← StoredWeight.encode_iff, encodeWeight]
  cases Weight.encode w with
  | error error => exact ⟨nofun, nofun⟩
  | ok encoded => exact ⟨fun same => by cases same; rfl, fun same => by cases same; rfl⟩

theorem encodeFinal_ok {final : Option W} : encodeFinal final = .ok bytes ↔
    (∀ weight ∈ final, StoredWeight.Fits weight) ∧ bytes = written (finalFields final) := by
  cases final with
  | none => simp [encodeFinal, finalFields, written, Field.written, pure, Except.pure, eq_comm]
  | some weight =>
    simp only [encodeFinal, except_bind_ok, encodeWeight_ok, Option.mem_def, Option.some.injEq, forall_eq']
    constructor
    · intro given
      obtain ⟨_, ⟨fits, rfl⟩, ⟨⟩⟩ := given
      exact ⟨fits, rfl⟩
    · intro given
      obtain ⟨fits, rfl⟩ := given
      exact ⟨_, ⟨fits, rfl⟩, rfl⟩

theorem Arc.encode_ok {arc : Arc W} :
    arc.encode = .ok bytes ↔ StoredWeight.Fits arc.weight ∧ bytes = written arc.fields := by
  have spelled : written arc.fields = Bytes.ofWord 4 arc.input.toNat ++ Bytes.ofWord 4 arc.output.toNat ++
      Bytes.ofWord 4 arc.target ++ Bytes.ofWord 4 0 ++ written (StoredWeight.fields arc.weight) := by
    simp [fields, written, Field.written]
  simp only [encode, except_bind_ok, encodeWeight_ok, spelled]
  constructor
  · intro given
    obtain ⟨_, ⟨fits, rfl⟩, ⟨⟩⟩ := given
    exact ⟨fits, rfl⟩
  · intro given
    obtain ⟨fits, rfl⟩ := given
    exact ⟨_, ⟨fits, rfl⟩, rfl⟩

theorem mapM_encode_ok {ε α : Type} {encode : α → Except ε Bytes} {Fits : α → Prop} {fields : α → List Field}
    (encode_ok : ∀ item bytes, encode item = .ok bytes ↔ Fits item ∧ bytes = written (fields item))
    {items : List α} {parts : List Bytes} : items.mapM encode = .ok parts ↔
      (∀ item ∈ items, Fits item) ∧ parts = items.map fun item => written (fields item) := by
  induction items generalizing parts with
  | nil => simp [pure, Except.pure, eq_comm]
  | cons item items ih =>
    simp only [List.mapM_cons, except_bind_ok, encode_ok, ih, List.mem_cons, forall_eq_or_imp, List.map_cons]
    constructor
    · intro given
      obtain ⟨_, ⟨fits, rfl⟩, _, ⟨others, rfl⟩, ⟨⟩⟩ := given
      exact ⟨⟨fits, others⟩, rfl⟩
    · intro given
      obtain ⟨⟨fits, others⟩, rfl⟩ := given
      exact ⟨_, ⟨fits, rfl⟩, _, ⟨others, rfl⟩, rfl⟩

theorem written_flatMap {α : Type} (fields : α → List Field) (items : List α) :
    written (items.flatMap fields) = (items.map fun item => written (fields item)).flatten := by
  rw [written, List.flatMap_assoc]
  rfl

theorem encodeCount_ok {count : Nat} : encodeCount count = .ok bytes ↔ count < 2 ^ 32 ∧ bytes = .ofWord 4 count := by
  unfold encodeCount
  split
  next small => exact ⟨fun encoded => ⟨small, (Except.ok.inj encoded).symm⟩, fun ⟨_, same⟩ => congrArg Except.ok same.symm⟩
  next large => exact ⟨nofun, fun ⟨small, _⟩ => absurd small large⟩

theorem State.encode_ok {state : State W} :
    state.encode = .ok bytes ↔ state.Storable ∧ bytes = written state.fields := by
  have spelled : written state.fields = written (finalFields state.final) ++ Bytes.ofWord 4 state.arcs.size ++
      (state.arcs.toList.map fun arc => written arc.fields).flatten := by
    rw [fields, written_append, ← written_flatMap, List.append_assoc]
    rfl
  simp only [encode, except_bind_ok, encodeFinal_ok, encodeCount_ok, mapM_encode_ok fun _ _ => Arc.encode_ok, spelled]
  constructor
  · intro given
    obtain ⟨_, ⟨final, rfl⟩, _, ⟨count, rfl⟩, _, ⟨weights, rfl⟩, ⟨⟩⟩ := given
    exact ⟨⟨final, count, fun arc member => weights arc (Array.mem_toList_iff.mpr member)⟩, rfl⟩
  · intro given
    obtain ⟨⟨final, count, weights⟩, rfl⟩ := given
    exact ⟨_, ⟨final, rfl⟩, _, ⟨count, rfl⟩, _, ⟨fun arc member => weights arc (Array.mem_toList_iff.mp member), rfl⟩, rfl⟩

theorem encodeTypeName_ok {name : String} : encodeTypeName name = .ok bytes ↔
    Nameable name ∧ bytes = typeNameBytes name := by
  simp only [encodeTypeName, except_bind_ok, encodeCount_ok]
  constructor
  · intro given
    obtain ⟨_, ⟨bound, rfl⟩, ⟨⟩⟩ := given
    exact ⟨bound, rfl⟩
  · intro given
    obtain ⟨bound, rfl⟩ := given
    exact ⟨_, ⟨bound, rfl⟩, rfl⟩

theorem Graph.encode_ok {graph : Graph W} : graph.encode = .ok bytes ↔
    Nameable (Weight.typeName W) ∧ (∀ state ∈ graph.states, state.Storable) ∧
      bytes = written graph.fields := by
  have spelled : written graph.fields = graph.header.encode ++ typeNameBytes (Weight.typeName W) ++
      (graph.states.toList.map fun state => written state.fields).flatten := by
    rw [← written_flatMap]
    simp [fields, written, Field.written, Header.encode, header]
  simp only [encode, except_bind_ok, encodeTypeName_ok, mapM_encode_ok fun _ _ => State.encode_ok, spelled]
  constructor
  · intro given
    obtain ⟨_, ⟨name, rfl⟩, _, ⟨states, rfl⟩, ⟨⟩⟩ := given
    exact ⟨name, fun state member => states state (Array.mem_toList_iff.mpr member), rfl⟩
  · intro given
    obtain ⟨name, states, rfl⟩ := given
    exact ⟨_, ⟨name, rfl⟩, _, ⟨fun state member => states state (Array.mem_toList_iff.mp member), rfl⟩, rfl⟩

theorem spells_reserved {fields : List Field} : Spells (.reserved :: fields) input rest ↔
    ∃ word middle, word < 256 ^ 4 ∧ input = Bytes.ofWord 4 word ++ middle ∧ Spells fields middle rest := by
  simp only [Spells, Field.Spelled]
  constructor
  · intro given
    obtain ⟨part, middle, sized, rfl, after⟩ := given
    exact ⟨part.toWord, middle, sized ▸ part.toWord_lt, by rw [← sized, Bytes.ofWord_toWord], after⟩
  · intro given
    obtain ⟨word, middle, _, rfl, after⟩ := given
    exact ⟨_, middle, Bytes.length_ofWord 4 word, rfl, after⟩

namespace Reader

theorem label_ok {label : Label} : Reader.label input = .ok (label, rest) ↔
    input = Bytes.ofWord 4 label.toNat ++ rest := by
  simp only [Reader.label, Parser.bind_ok, Parser.pure_ok, word_ok]
  constructor
  · intro given
    obtain ⟨value, _, ⟨bound, rfl⟩, rfl, rfl⟩ := given
    rw [UInt32.toNat_ofNat_of_lt' bound]
  · intro same
    subst same
    exact ⟨_, _, ⟨label.toNat_lt, rfl⟩, UInt32.ofNat_toNat, rfl⟩

theorem weight_ok {w : W} :
    weight input = .ok (w, rest) ↔ StoredWeight.Fits w ∧ Spells (StoredWeight.fields w) input rest :=
  ofDecoder_ok.trans StoredWeight.decode_iff

theorem arc_ok {size source : Nat} (bound : size ≤ Header.noStart) {arc : Arc W} :
    Reader.arc size source input = .ok (arc, rest) ↔
      (arc.target < size ∧ StoredWeight.Fits arc.weight) ∧ Spells arc.fields input rest := by
  simp only [Reader.arc, Parser.bind_ok, label_ok, word_ok, Parser.discard_ok, weight_ok, Parser.check_ok,
    Parser.pure_ok, Arc.fields, spells_exact, spells_reserved]
  constructor
  · intro given
    obtain ⟨input, _, rfl, output, _, rfl, target, _, ⟨_, rfl⟩, _, _, ⟨reserved, fits, rfl⟩, weight, _, ⟨stored, spelled⟩,
      inside, rfl, rfl⟩ := given
    exact ⟨⟨Nat.not_le.mp inside, stored⟩, _, by simp, reserved, _, fits, rfl, spelled⟩
  · intro given
    obtain ⟨⟨inside, stored⟩, _, rfl, reserved, _, fits, rfl, spelled⟩ := given
    have small : arc.target < 256 ^ 4 := Nat.lt_of_lt_of_le inside (Nat.le_trans bound (by decide))
    exact ⟨_, _, by simp, _, _, rfl, _, _, ⟨small, rfl⟩, (), _, ⟨reserved, fits, rfl⟩, _, _, ⟨stored, spelled⟩,
      Nat.not_le.mpr inside, rfl, rfl⟩

theorem final_ok {source : Nat} {final : Option W} : Reader.final source input = .ok (final, rest) ↔
    (∀ weight ∈ final, StoredWeight.Fits weight) ∧ Spells (finalFields final) input rest := by
  simp only [Reader.final, Parser.bind_ok, word_ok]
  constructor
  · intro given
    obtain ⟨marker, middle, ⟨_, rfl⟩, taken⟩ := given
    split at taken
    next =>
      obtain ⟨rfl, rfl⟩ := Parser.pure_ok.mp taken
      exact ⟨by simp, spells_singleton.mpr rfl⟩
    next =>
      simp only [Parser.bind_ok, Parser.pure_ok, weight_ok] at taken
      obtain ⟨weight, _, ⟨fits, spelled⟩, rfl, rfl⟩ := taken
      exact ⟨by simpa using fits, spells_exact.mpr ⟨_, rfl, spelled⟩⟩
    next => exact (Parser.throw_ok taken).elim
  · intro given
    obtain ⟨fits, spelled⟩ := given
    cases final with
    | none =>
      obtain rfl := spells_singleton.mp spelled
      exact ⟨0, rest, ⟨by decide, rfl⟩, rfl⟩
    | some weight =>
      obtain ⟨middle, rfl, stored⟩ := spells_exact.mp spelled
      exact ⟨1, middle, ⟨by decide, rfl⟩, Parser.bind_ok.mpr ⟨weight, rest, weight_ok.mpr ⟨fits weight rfl, stored⟩, rfl⟩⟩

section Repeat

variable {α : Type} {collect : Array α → Nat → Reader (Array α)} {item : Array α → Reader α} {Fits : α → Prop}
variable {fields : α → List Field} {count : Nat} {all : Array α}

theorem repeat_from_ok (done : ∀ read, collect read 0 = pure read)
    (more : ∀ read count, collect read (count + 1) = do collect (read.push (← item read)) count)
    (item_ok : ∀ read input value rest,
      item read input = .ok (value, rest) ↔ Fits value ∧ Spells (fields value) input rest) (read : Array α) :
    collect read count input = .ok (all, rest) ↔
      ∃ items : List α, items.length = count ∧ read.toList ++ items = all.toList ∧ (∀ item ∈ items, Fits item) ∧
        Spells (items.flatMap fields) input rest := by
  induction count generalizing read input with
  | zero =>
    rw [done, Parser.pure_ok]
    constructor
    · intro given
      obtain ⟨rfl, rfl⟩ := given
      exact ⟨[], rfl, by simp, by simp, rfl⟩
    · intro given
      obtain ⟨items, none, same, _, spelled⟩ := given
      obtain rfl := List.eq_nil_of_length_eq_zero none
      exact ⟨by simpa using same, spelled⟩
  | succ count ih =>
    simp only [more, Parser.bind_ok, item_ok, ih]
    constructor
    · intro given
      obtain ⟨value, _, ⟨fits, first⟩, items, rfl, same, others, spelled⟩ := given
      refine ⟨value :: items, rfl, by simpa using same, by simpa using ⟨fits, others⟩, ?_⟩
      exact spells_append.mpr ⟨_, first, spelled⟩
    · intro given
      obtain ⟨items, sized, same, fits, spelled⟩ := given
      obtain ⟨value, items, rfl⟩ := List.exists_cons_of_length_eq_add_one sized
      obtain ⟨middle, first, others⟩ := spells_append.mp spelled
      obtain ⟨fit, fits⟩ := List.forall_mem_cons.mp fits
      exact ⟨value, middle, ⟨fit, first⟩, items, Nat.succ.inj sized, by simpa using same, fits, others⟩

theorem repeat_ok (done : ∀ read, collect read 0 = pure read)
    (more : ∀ read count, collect read (count + 1) = do collect (read.push (← item read)) count)
    (item_ok : ∀ read input value rest,
      item read input = .ok (value, rest) ↔ Fits value ∧ Spells (fields value) input rest) :
    collect #[] count input = .ok (all, rest) ↔
      all.size = count ∧ (∀ item ∈ all, Fits item) ∧ Spells (all.toList.flatMap fields) input rest := by
  apply (repeat_from_ok done more item_ok #[]).trans
  constructor
  · intro given
    obtain ⟨items, rfl, same, fits, spelled⟩ := given
    obtain rfl : items = all.toList := by simpa using same
    exact ⟨by simp, by simpa using fits, spelled⟩
  · intro given
    obtain ⟨rfl, fits, spelled⟩ := given
    exact ⟨all.toList, by simp, by simp, by simpa using fits, spelled⟩

end Repeat

theorem arcs_ok {size source : Nat} (bound : size ≤ Header.noStart) {count : Nat} {all : Array (Arc W)} :
    Reader.arcs size source #[] count input = .ok (all, rest) ↔ all.size = count ∧
      (∀ arc ∈ all, arc.target < size ∧ StoredWeight.Fits arc.weight) ∧
      Spells (all.toList.flatMap Arc.fields) input rest :=
  repeat_ok (fun _ => rfl) (fun _ _ => rfl) fun _ _ _ _ => arc_ok bound

theorem state_ok {size source : Nat} (bound : size ≤ Header.noStart) {state : State W} :
    Reader.state size source input = .ok (state, rest) ↔
      (state.Storable ∧ ∀ arc ∈ state.arcs, arc.target < size) ∧ Spells state.fields input rest := by
  simp only [Reader.state, Parser.bind_ok, Parser.pure_ok, final_ok, word_ok, arcs_ok bound, State.fields,
    spells_append, spells_exact]
  constructor
  · intro given
    obtain ⟨final, _, ⟨fits, first⟩, _, _, ⟨count, rfl⟩, arcs, _, ⟨rfl, all, others⟩, rfl, rfl⟩ := given
    exact ⟨⟨⟨fits, count, fun arc member => (all arc member).2⟩, fun arc member => (all arc member).1⟩,
      _, first, _, rfl, others⟩
  · intro given
    obtain ⟨⟨⟨fits, count, weights⟩, targets⟩, _, first, _, rfl, others⟩ := given
    exact ⟨_, _, ⟨fits, first⟩, _, _, ⟨count, rfl⟩, _, _,
      ⟨rfl, fun arc member => ⟨targets arc member, weights arc member⟩, others⟩, rfl, rfl⟩

theorem states_ok {size : Nat} (bound : size ≤ Header.noStart) {count : Nat} {all : Array (State W)} :
    Reader.states size #[] count input = .ok (all, rest) ↔ all.size = count ∧
      (∀ state ∈ all, state.Storable ∧ ∀ arc ∈ state.arcs, arc.target < size) ∧
      Spells (all.toList.flatMap State.fields) input rest :=
  repeat_ok (fun _ => rfl) (fun _ _ => rfl) fun _ _ _ _ => state_ok bound

end Reader

end Transducer
