import Transducer.Proofs.RoundTrip

/-! Stored bytes end where they say. A parser that succeeds has taken a block of bytes. It takes the same block
before any other rest, and finds that the input ends too soon when a part of the block is cut off behind. So
bytes that are read as a graph are neither continued nor cut short by bytes that are read as another. -/

namespace Transducer

namespace Parser

variable {ε α β : Type} {short error : ε} {input middle : Bytes} {found : α}

theorem bind_of_ok {first : Parser ε α} {next : α → Parser ε β} (taken : first input = .ok (found, middle)) :
    (first >>= next) input = next found middle := by
  simp only [Bind.bind, StateT.bind, taken, Except.bind]

theorem bind_of_error {first : Parser ε α} {next : α → Parser ε β} (failed : first input = .error error) :
    (first >>= next) input = .error error := by
  simp only [Bind.bind, StateT.bind, failed, Except.bind]

theorem discard_of_error {first : Parser ε α} (failed : first input = .error error) :
    discard first input = .error error := by
  show ((fun _ => ()) <$> first) input = _
  rw [map_eq_pure_bind, bind_of_error failed]

/-- The block is what the parser takes for the value, whatever follows, and a shorter beginning of it is too
short. -/
structure Takes (short : ε) (parser : Parser ε α) (block : Bytes) (value : α) : Prop where
  whole : ∀ rest, parser (block ++ rest) = .ok (value, rest)
  cut : ∀ front, front <+: block → front ≠ block → parser front = .error short

def Delimits (short : ε) (parser : Parser ε α) : Prop :=
  ∀ input value rest, parser input = .ok (value, rest) →
    ∃ block, input = block ++ rest ∧ Takes short parser block value

/-- A beginning of two blocks in a row ends within the first one or within the second one. -/
theorem prefix_append_cases {front block more : Bytes} (before : front <+: block ++ more)
    (cut : front ≠ block ++ more) :
    (front <+: block ∧ front ≠ block) ∨ ∃ part, front = block ++ part ∧ part <+: more ∧ part ≠ more := by
  rcases List.prefix_or_prefix_of_prefix before (List.prefix_append block more) with inside | ⟨part, rfl⟩
  · by_cases same : front = block
    · subst same
      exact .inr ⟨[], by simp, List.nil_prefix, fun empty => cut (by simp [← empty])⟩
    · exact .inl ⟨inside, same⟩
  · refine .inr ⟨part, rfl, (List.prefix_append_right_inj block).mp before, fun same => cut (by rw [same])⟩

theorem Takes.bind {first : Parser ε α} {next : α → Parser ε β} {block more : Bytes} {value : β}
    (one : Takes short first block found) (other : Takes short (next found) more value) :
    Takes short (first >>= next) (block ++ more) value where
  whole rest := by
    rw [List.append_assoc, bind_of_ok (one.whole _), other.whole]
  cut front before cut := by
    rcases prefix_append_cases before cut with ⟨inside, shorter⟩ | ⟨part, rfl, inside, shorter⟩
    · exact bind_of_error (one.cut front inside shorter)
    · rw [bind_of_ok (one.whole part), other.cut part inside shorter]

theorem Takes.pure (value : α) : Takes short (Pure.pure value : Parser ε α) [] value where
  whole _ := rfl
  cut _ before cut := absurd (List.prefix_nil.mp before) cut

namespace Delimits

theorem pure (value : α) : Delimits short (Pure.pure value) := by
  intro input found rest taken
  obtain ⟨rfl, rfl⟩ := pure_ok.mp taken
  exact ⟨[], rfl, .pure value⟩

theorem throw : Delimits short (MonadExcept.throw error : Parser ε α) :=
  fun _ _ _ taken => (throw_ok taken).elim

theorem bind {first : Parser ε α} {next : α → Parser ε β} (now : Delimits short first)
    (later : ∀ found, Delimits short (next found)) : Delimits short (first >>= next) := by
  intro input value rest taken
  obtain ⟨found, middle, front, back⟩ := bind_ok.mp taken
  obtain ⟨block, rfl, one⟩ := now _ _ _ front
  obtain ⟨more, rfl, other⟩ := later found _ _ _ back
  exact ⟨block ++ more, (List.append_assoc ..).symm, one.bind other⟩

theorem map {f : α → β} {first : Parser ε α} (now : Delimits short first) : Delimits short (f <$> first) := by
  rw [map_eq_pure_bind]
  exact now.bind fun found => .pure (f found)

theorem discard {first : Parser ε α} (now : Delimits short first) : Delimits short (discard first) :=
  now.map

theorem ite {condition : Prop} [Decidable condition] {first second : Parser ε α} (one : Delimits short first)
    (other : Delimits short second) : Delimits short (if condition then first else second) := by
  split
  next => exact one
  next => exact other

/-- A check takes nothing. -/
theorem check {condition : Prop} [Decidable condition] {next : β → Parser ε α} {second : Parser ε α}
    (otherwise : Delimits short second) :
    Delimits short (if condition then MonadExcept.throw error >>= next else second) := by
  refine .ite (fun input value rest taken => ?_) otherwise
  obtain ⟨found, middle, thrown, -⟩ := bind_ok.mp taken
  exact (throw_ok thrown).elim

end Delimits

end Parser

namespace Decoder

theorem take_of_short {count : Nat} {input : Bytes} (few : input.length < count) :
    take count input = .error .endOfInput := by
  have none : input.splitAt? count = none := by
    refine Option.eq_none_iff_forall_not_mem.mpr fun parts found => ?_
    obtain ⟨sized, rfl⟩ := Bytes.splitAt?_iff.mp found
    exact absurd few (by simp [sized])
  rw [take, none]

theorem take_delimits (count : Nat) : Parser.Delimits .endOfInput (take count) := by
  intro input front rest taken
  obtain ⟨sized, rfl⟩ := take_ok.mp taken
  refine ⟨front, rfl, fun rest => take_ok.mpr ⟨sized, rfl⟩, fun part before cut => take_of_short ?_⟩
  have shorter := before.length_le
  exact sized ▸ Nat.lt_of_le_of_ne shorter (mt before.eq_of_length cut)

theorem word_delimits (count : Nat) : Parser.Delimits .endOfInput (word count) :=
  (take_delimits count).bind fun _ => .pure _

end Decoder

theorem Number.decode_delimits {width : Width} :
    Parser.Delimits .endOfInput (Number.decode : Decoder (Floating width)) :=
  (Decoder.word_delimits _).bind fun _ => .pure _

theorem SignedLog.decode_delimits {width : Width} :
    Parser.Delimits .endOfInput (SignedLog.decode : Decoder (SignedLog width)) :=
  Number.decode_delimits.bind fun _ => Number.decode_delimits.bind fun _ => .ite (.pure _) (.ite (.pure _) .throw)

theorem Boolean.decode_delimits : Parser.Delimits .endOfInput Boolean.decode := by
  refine (Decoder.word_delimits 1).bind fun byte => ?_
  split
  next => exact .pure _
  next => exact .pure _
  next => exact .pure _
  next => exact .throw

namespace LabelString

theorem decodeLabels_delimits (count : Nat) : Parser.Delimits .endOfInput (decodeLabels count) := by
  induction count with
  | zero => exact .pure _
  | succ count ih => exact (Decoder.word_delimits 4).bind fun label => ih.bind fun rest => .pure _

theorem decode_delimits {side : Side} : Parser.Delimits .endOfInput (LabelString.decode : Decoder (LabelString side)) := by
  refine (Decoder.word_delimits 4).bind fun length => .ite (.pure _) (.ite (.pure _) (.ite ?_ .throw))
  exact (decodeLabels_delimits length).bind fun word => .pure _

end LabelString

/-- Weights of every type say where they end. -/
theorem WeightType.decode_delimits (type : WeightType) :
    Parser.Delimits .endOfInput (Weight.decode : Decoder type.Carrier) := by
  induction type with
  | builtIn type =>
    match type with
    | .tropical _ => exact Number.decode_delimits.map
    | .log _ => exact Number.decode_delimits.map
    | .signedLog _ => exact SignedLog.decode_delimits
    | .minMax _ => exact Number.decode_delimits.map
    | .boolean => exact Boolean.decode_delimits
    | .labelString _ => exact LabelString.decode_delimits
  | product first second ihFirst ihSecond => exact ihFirst.bind fun _ => ihSecond.bind fun _ => .pure _

namespace Reader

theorem ofDecoder_delimits {α : Type} {decoder : Decoder α} (delimits : Parser.Delimits .endOfInput decoder) :
    Parser.Delimits .truncated (ofDecoder decoder) := by
  intro input value rest taken
  obtain ⟨block, rfl, takes⟩ := delimits input value rest (ofDecoder_ok.mp taken)
  refine ⟨block, rfl, fun rest => ofDecoder_ok.mpr (takes.whole rest), fun front before cut => ?_⟩
  rw [ofDecoder, takes.cut front before cut]
  rfl

theorem word_delimits (count : Nat) : Parser.Delimits .truncated (word count) :=
  ofDecoder_delimits (Decoder.word_delimits count)

theorem typeName_delimits : Parser.Delimits .truncated Header.readTypeName := by
  refine (word_delimits 4).bind fun length => (ofDecoder_delimits (Decoder.take_delimits length)).bind fun bytes => ?_
  cases Text.decode? bytes with
  | none => exact .throw
  | some name => exact .pure _

theorem weightType_delimits (expected : String) : Parser.Delimits .truncated (weightType expected) :=
  typeName_delimits.bind fun _ => .ite .throw (.pure _)

section Weights

variable {W : Type} [Weight W] (weights : Parser.Delimits .endOfInput (Weight.decode : Decoder W))
include weights

theorem arc_delimits (size source : Nat) : Parser.Delimits .truncated (arc size source : Reader (Arc W)) := by
  have label : Parser.Delimits .truncated label := (word_delimits 4).bind fun _ => .pure _
  refine label.bind fun input => label.bind fun output => (word_delimits 4).bind fun target => ?_
  exact (word_delimits 4).discard.bind fun _ => (ofDecoder_delimits weights).bind fun weight => .check (.pure _)

theorem arcs_delimits (size source count : Nat) (read : Array (Arc W)) :
    Parser.Delimits .truncated (arcs size source read count) := by
  induction count generalizing read with
  | zero => exact .pure _
  | succ count ih => exact (arc_delimits weights size source).bind fun arc => ih _

theorem final_delimits (source : Nat) : Parser.Delimits .truncated (final source : Reader (Option W)) := by
  refine (word_delimits 1).bind fun marker => ?_
  split
  next => exact .pure _
  next => exact (ofDecoder_delimits weights).bind fun weight => .pure _
  next => exact .throw

theorem state_delimits (size source : Nat) : Parser.Delimits .truncated (state size source : Reader (State W)) := by
  refine (final_delimits weights source).bind fun final => (word_delimits 4).bind fun count => ?_
  exact (arcs_delimits weights size source count #[]).bind fun arcs => .pure _

theorem states_delimits (size count : Nat) (read : Array (State W)) :
    Parser.Delimits .truncated (states size read count) := by
  induction count generalizing read with
  | zero => exact .pure _
  | succ count ih => exact (state_delimits weights size read.size).bind fun state => ih _

end Weights

end Reader

namespace Header

/-- What a beginning of stored bytes is refused with. -/
def cutError (front : Bytes) : ReadError :=
  if front.length < size then .tooShort size front.length else .truncated

variable {header : Header} {front rest : Bytes}

theorem length_encode (header : Header) : header.encode.length = size := by
  simp [encode, Bytes.length_ofWord, size]

theorem read_of_short (few : front.length < size) : Header.read front = .error (.tooShort size front.length) := by
  unfold Header.read
  rw [Parser.bind_of_ok (Parser.get_ok.mpr ⟨rfl, rfl⟩), if_pos few]
  exact Parser.bind_of_error rfl

/-- A beginning that is long enough has the whole header. -/
theorem exists_of_prefix (before : front <+: header.encode ++ rest) (cut : front ≠ header.encode ++ rest)
    (long : ¬ front.length < size) : ∃ part, front = header.encode ++ part ∧ part <+: rest ∧ part ≠ rest := by
  rcases Parser.prefix_append_cases before cut with ⟨inside, shorter⟩ | whole
  · have less := Nat.lt_of_le_of_ne inside.length_le (mt inside.eq_of_length shorter)
    exact absurd (length_encode header ▸ less) long
  · exact whole

end Header

namespace Reader

variable {W : Type} [Weight W] {graph : Graph W} {header : Header} {input body rest : Bytes}

theorem stateCount_of_short (few : input.length / leastStateSize < header.states) :
    stateCount header input = .error .truncated := by
  unfold stateCount
  rw [Parser.bind_of_ok (Parser.get_ok.mpr ⟨rfl, rfl⟩), if_pos few]
  exact Parser.bind_of_error rfl

/-- The header and the body, which holds the states, of bytes that are read as a graph. -/
structure Sections (graph : Graph W) (header : Header) (name body : Bytes) : Prop where
  bounded : header.Bounded
  name : Parser.Takes .truncated (weightType (Weight.typeName W)) name ()
  few : header.states ≤ Header.noStart
  start : graph.start = header.startState?
  inside : ∀ s ∈ header.startState?, s < header.states
  room : header.states ≤ body.length / leastStateSize
  states : Parser.Takes .truncated (states header.states #[] header.states) body graph.states
  arcs : graph.totalArcs = header.arcs

theorem exists_sections (weights : Parser.Delimits .endOfInput (Weight.decode : Decoder W))
    (taken : Reader.graph input = .ok (graph, rest)) :
    ∃ header name body, input = header.encode ++ (name ++ body) ∧ Sections graph header name body := by
  simp only [Reader.graph, Parser.bind_ok, Header.read_ok, stateCount_ok, start_ok, Parser.check_ok,
    Parser.get_ok] at taken
  obtain ⟨header, _, ⟨bounded, rfl⟩, _, _, named, _, middle, ⟨⟨rfl, few⟩, room, rfl⟩, _, _, ⟨⟨rfl, inside⟩, rfl⟩,
    states, last, taken, totals, _, _, ⟨rfl, rfl⟩, ending⟩ := taken
  obtain ⟨name, rfl, nameTakes⟩ := weightType_delimits _ _ _ _ named
  obtain ⟨body, rfl, bodyTakes⟩ := states_delimits weights _ _ _ _ _ _ taken
  cases last with
  | cons byte last => cases ending
  | nil =>
    obtain ⟨rfl, rfl⟩ := Parser.pure_ok.mp ending
    rw [List.append_nil] at room ⊢
    exact ⟨header, name, body, rfl, bounded, nameTakes, few, rfl, inside, room, bodyTakes,
      Decidable.not_not.mp totals⟩

namespace Sections

variable {name part more : Bytes}

theorem graph_cut (sections : Sections graph header name body) (before : part <+: name ++ body)
    (cut : part ≠ name ++ body) : (Reader.graph : Reader (Graph W)) (header.encode ++ part) = .error .truncated := by
  unfold Reader.graph
  rw [Parser.bind_of_ok (Header.read_ok.mpr ⟨sections.bounded, rfl⟩)]
  rcases Parser.prefix_append_cases before cut with ⟨inside, shorter⟩ | ⟨part, rfl, inside, shorter⟩
  · exact Parser.bind_of_error (sections.name.cut part inside shorter)
  rw [Parser.bind_of_ok (sections.name.whole part)]
  by_cases room : header.states ≤ part.length / leastStateSize
  · rw [Parser.bind_of_ok (stateCount_ok.mpr ⟨⟨rfl, sections.few⟩, room, rfl⟩),
      Parser.bind_of_ok (start_ok.mpr ⟨⟨rfl, sections.inside⟩, rfl⟩)]
    exact Parser.bind_of_error (sections.states.cut part inside shorter)
  · exact Parser.bind_of_error (stateCount_of_short (Nat.not_le.mp room))

theorem graph_followed (sections : Sections graph header name body) (some : more ≠ []) :
    (Reader.graph : Reader (Graph W)) (header.encode ++ (name ++ (body ++ more))) =
      .error (.corrupt (.trailing more.length)) := by
  have room : header.states ≤ (body ++ more).length / leastStateSize := by
    refine Nat.le_trans sections.room (Nat.div_le_div_right ?_)
    simp
  have totals : ¬ Graph.totalArcs { start := header.startState?, states := graph.states : Graph W } ≠ header.arcs :=
    Decidable.not_not.mpr sections.arcs
  unfold Reader.graph
  rw [Parser.bind_of_ok (Header.read_ok.mpr ⟨sections.bounded, rfl⟩), Parser.bind_of_ok (sections.name.whole _),
    Parser.bind_of_ok (stateCount_ok.mpr ⟨⟨rfl, sections.few⟩, room, rfl⟩),
    Parser.bind_of_ok (start_ok.mpr ⟨⟨rfl, sections.inside⟩, rfl⟩), Parser.bind_of_ok (sections.states.whole more),
    if_neg totals]
  refine (Parser.bind_of_ok (Parser.get_ok.mpr ⟨rfl, rfl⟩)).trans ?_
  cases more with
  | nil => exact absurd rfl some
  | cons byte more => rfl

end Sections

end Reader

/-- No part of what is read is read when it is cut off behind, and nothing that follows is taken with it. -/
structure PrefixFree {α : Type} (decode : Bytes → Except ReadError α) : Prop where
  cut : ∀ data value, decode data = .ok value → ∀ front, front <+: data → front ≠ data →
    decode front = .error (Header.cutError front)
  followed : ∀ data value, decode data = .ok value → ∀ more, more ≠ [] →
    decode (data ++ more) = .error (.corrupt (.trailing more.length))

theorem Graph.decode_prefixFree {W : Type} [Weight W]
    (weights : Parser.Delimits .endOfInput (Weight.decode : Decoder W)) :
    PrefixFree (Graph.decode : Bytes → Except ReadError (Graph W)) := by
  constructor
  case cut =>
    intro data graph read front before cut
    obtain ⟨rest, taken⟩ := Parser.run'_ok.mp read
    obtain ⟨header, name, body, rfl, sections⟩ := Reader.exists_sections weights taken
    apply Parser.run'_error.mpr
    unfold Header.cutError
    split
    next few =>
      unfold Reader.graph
      exact Parser.bind_of_error (Header.read_of_short few)
    next long =>
      obtain ⟨part, rfl, inside, shorter⟩ := Header.exists_of_prefix before cut long
      exact sections.graph_cut inside shorter
  case followed =>
    intro data graph read more some
    obtain ⟨rest, taken⟩ := Parser.run'_ok.mp read
    obtain ⟨header, name, body, rfl, sections⟩ := Reader.exists_sections weights taken
    apply Parser.run'_error.mpr
    simpa using sections.graph_followed some

namespace Header

variable {data front more : Bytes} {name : String}

/-- The name of the weight type is the same or is cut off. -/
theorem peekTypeName_of_prefix (peeked : peekTypeName data = .ok name) (before : front <+: data) (cut : front ≠ data) :
    peekTypeName front = .ok name ∨ peekTypeName front = .error (cutError front) := by
  obtain ⟨header, rest, bounded, named, rfl⟩ := peekTypeName_ok.mp peeked
  by_cases few : front.length < size
  · rw [cutError, if_pos few]
    exact .inr (Parser.run'_error.mpr (Parser.bind_of_error (Parser.discard_of_error (read_of_short few))))
  obtain ⟨part, rfl, inside, shorter⟩ := exists_of_prefix before cut few
  have read : discard Header.read (header.encode ++ part) = .ok ((), part) :=
    Parser.discard_ok.mpr ⟨header, read_ok.mpr ⟨bounded, rfl⟩⟩
  obtain ⟨block, same, takes⟩ := Reader.typeName_delimits _ _ rest (readTypeName_ok.mpr ⟨named, rfl⟩)
  rw [same] at inside shorter
  rcases Parser.prefix_append_cases inside shorter with ⟨inside, shorter⟩ | ⟨part, rfl, -, -⟩
  · refine .inr (Parser.run'_error.mpr ?_)
    rw [cutError, if_neg few, Parser.bind_of_ok read, takes.cut part inside shorter]
  · refine .inl (Parser.run'_ok.mpr ⟨part, ?_⟩)
    rw [Parser.bind_of_ok read, takes.whole part]

theorem peekTypeName_append (peeked : peekTypeName data = .ok name) (more : Bytes) :
    peekTypeName (data ++ more) = .ok name := by
  obtain ⟨header, rest, bounded, named, rfl⟩ := peekTypeName_ok.mp peeked
  exact peekTypeName_ok.mpr ⟨header, rest ++ more, bounded, named, by simp⟩

end Header

namespace TypedGraph

variable {data : Bytes} {typed : TypedGraph} {type : BuiltIn} {name : String} {error : ReadError}

theorem decode_ok : decode data = .ok typed ↔ ∃ name, Header.peekTypeName data = .ok name ∧
    BuiltIn.ofName? name = some typed.type ∧ Graph.decode data = .ok typed.graph := by
  simp only [decode, except_bind_ok]
  constructor
  · intro given
    obtain ⟨name, peeked, taken⟩ := given
    split at taken
    next type known =>
      obtain ⟨graph, read, ⟨⟩⟩ := except_bind_ok.mp taken
      exact ⟨name, peeked, known, read⟩
    next => cases taken
  · intro given
    obtain ⟨name, peeked, known, read⟩ := given
    refine ⟨name, peeked, ?_⟩
    rw [known]
    exact except_bind_ok.mpr ⟨typed.graph, read, rfl⟩

theorem decode_of_name (peeked : Header.peekTypeName data = .ok name) (known : BuiltIn.ofName? name = some type)
    (refused : (Graph.decode data : Except ReadError (Graph type.Carrier)) = .error error) :
    decode data = .error error := by
  simp only [decode, peeked, bind, Except.bind, known, refused]

theorem decode_of_nameless (peeked : Header.peekTypeName data = .error error) : decode data = .error error := by
  simp only [decode, peeked, bind, Except.bind]

theorem decode_prefixFree : PrefixFree decode := by
  constructor
  case cut =>
    intro data typed read front before cut
    obtain ⟨name, peeked, known, read⟩ := decode_ok.mp read
    rcases Header.peekTypeName_of_prefix peeked before cut with same | refused
    · have graphs := Graph.decode_prefixFree (WeightType.builtIn typed.type).decode_delimits
      exact decode_of_name same known (graphs.cut data typed.graph read front before cut)
    · exact decode_of_nameless refused
  case followed =>
    intro data typed read more some
    obtain ⟨name, peeked, known, read⟩ := decode_ok.mp read
    have graphs := Graph.decode_prefixFree (WeightType.builtIn typed.type).decode_delimits
    exact decode_of_name (Header.peekTypeName_append peeked more) known
      (graphs.followed data typed.graph read more some)

end TypedGraph

/-- Bytes that are read as a graph are refused when they are cut short anywhere, and when anything follows them,
with an error that says so. This is so for graphs over each weight type and for those that name their own. -/
theorem decoding_prefixFree :
    (∀ type : WeightType, PrefixFree (Graph.decode : Bytes → Except ReadError (Graph type.Carrier))) ∧
      PrefixFree TypedGraph.decode :=
  ⟨fun type => Graph.decode_prefixFree type.decode_delimits, TypedGraph.decode_prefixFree⟩

theorem loop_prefixFree :
    (Graph.decode ((written loop.fields).take 31) : Except ReadError (Graph Boolean)) = .error (.tooShort 32 31) ∧
    (Graph.decode ((written loop.fields).take 65) : Except ReadError (Graph Boolean)) = .error .truncated ∧
    (Graph.decode (written loop.fields ++ [0]) : Except ReadError (Graph Boolean)) = .error (.corrupt (.trailing 1)) := by
  obtain ⟨-, -, read⟩ := Graph.written_reads (by decide) ⟨by rintro s ⟨⟩; decide, by decide⟩ loop_storable
  have free := decoding_prefixFree.1 (.builtIn .boolean)
  have size : (written loop.fields).length = 66 := rfl
  have shorter {count : Nat} (few : count < 66) : (written loop.fields).take count ≠ written loop.fields := by
    intro same
    have sizes := congrArg List.length same
    rw [List.length_take, size] at sizes
    omega
  refine ⟨?_, ?_, free.followed _ loop read [0] (by decide)⟩
  · exact free.cut _ loop read _ (List.take_prefix 31 _) (shorter (by decide))
  · exact free.cut _ loop read _ (List.take_prefix 65 _) (shorter (by decide))

end Transducer
