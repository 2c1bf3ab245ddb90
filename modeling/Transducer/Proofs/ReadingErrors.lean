import Transducer.Container.Read
import Transducer.Proofs.Parsing
import Transducer.Weight.Catalog

/-! What parsers fail with. The weights of every type fail for want of bytes or for what the bytes are, and never for
where the bytes come from. So a graph over such weights is refused for what its bytes are. -/

namespace Transducer

/-- What can be wrong with bytes that are read as a weight. -/
inductive DecodeError.OfBytes : DecodeError → Prop
  | endOfInput : OfBytes .endOfInput
  | invalid (reason : String) : OfBytes (.invalid reason)

/-- What can be wrong with bytes that are read as a graph of a known weight type. -/
inductive ReadError.OfBytes : ReadError → Prop
  | tooShort (expected actual : Nat) : OfBytes (.tooShort expected actual)
  | invalidMagic : OfBytes .invalidMagic
  | unsupportedVersion (version : Nat) : OfBytes (.unsupportedVersion version)
  | truncated : OfBytes .truncated
  | corrupt (corruption : Corruption) : OfBytes (.corrupt corruption)
  | weightTypeMismatch (expected actual : String) : OfBytes (.weightTypeMismatch expected actual)

theorem DecodeError.OfBytes.ofDecode {error : DecodeError} (wrong : error.OfBytes) :
    (ReadError.ofDecode error).OfBytes := by
  cases wrong with
  | endOfInput => exact .truncated
  | invalid reason => exact .corrupt (.weight reason)

/-- The parser fails with no other errors. -/
def Parser.Raises {ε α : Type} (Error : ε → Prop) (parser : Parser ε α) : Prop :=
  ∀ input error, parser input = .error error → Error error

namespace Parser.Raises

variable {ε α β : Type} {Error : ε → Prop} {error : ε}

theorem bind {first : Parser ε α} {next : α → Parser ε β} (now : Raises Error first)
    (later : ∀ found, Raises Error (next found)) : Raises Error (first >>= next) := by
  intro input error failed
  simp only [Bind.bind, StateT.bind, Except.bind] at failed
  cases taken : first input with
  | error error' =>
    rw [taken] at failed
    cases failed
    exact now input error taken
  | ok found =>
    rw [taken] at failed
    exact later found.1 found.2 error failed

theorem pure (value : α) : Raises Error (Pure.pure value) := nofun

theorem map {f : α → β} {parser : Parser ε α} (raises : Raises Error parser) : Raises Error (f <$> parser) := by
  rw [map_eq_pure_bind]
  exact .bind raises fun _ => .pure _

theorem discard {parser : Parser ε α} (raises : Raises Error parser) : Raises Error (discard parser) := raises.map

theorem get : Raises Error (MonadState.get : Parser ε Bytes) := nofun

theorem throw (raised : Error error) : Raises Error (MonadExcept.throw error : Parser ε α) := by
  intro input _ equal
  cases equal
  exact raised

theorem ite {condition : Prop} [Decidable condition] {first second : Parser ε α} (one : Raises Error first)
    (other : Raises Error second) : Raises Error (if condition then first else second) := by
  split
  next => exact one
  next => exact other

theorem check {condition : Prop} [Decidable condition] {next : β → Parser ε α} {second : Parser ε α}
    (raised : Error error) (otherwise : Raises Error second) :
    Raises Error (if condition then MonadExcept.throw error >>= next else second) := by
  refine .ite (fun input error failed => ?_) otherwise
  cases failed
  exact raised

end Parser.Raises

section Weights
open DecodeError

theorem Decoder.take_raises (count : Nat) : Parser.Raises OfBytes (take count) := by
  intro input error failed
  unfold take at failed
  split at failed
  next => cases failed
  next => cases failed; exact .endOfInput

theorem Decoder.word_raises (count : Nat) : Parser.Raises OfBytes (word count) :=
  .bind (take_raises count) fun _ => .pure _

theorem Number.decode_raises {width : Width} : Parser.Raises OfBytes (decode : Decoder (Floating width)) :=
  .bind (Decoder.word_raises _) fun _ => .pure _

theorem SignedLog.decode_raises {width : Width} : Parser.Raises OfBytes (decode : Decoder (SignedLog width)) :=
  .bind Number.decode_raises fun _ => .bind Number.decode_raises fun _ =>
    .ite (.pure _) (.ite (.pure _) (.throw (.invalid _)))

theorem Boolean.decode_raises : Parser.Raises OfBytes decode := by
  refine .bind (Decoder.word_raises 1) fun byte => ?_
  split
  next => exact .pure _
  next => exact .pure _
  next => exact .pure _
  next => exact .throw (.invalid _)

theorem LabelString.decodeLabels_raises (count : Nat) : Parser.Raises OfBytes (decodeLabels count) := by
  induction count with
  | zero => exact .pure _
  | succ count ih => exact .bind (Decoder.word_raises 4) fun label => ih.bind fun rest => .pure _

theorem LabelString.decode_raises {side : Side} : Parser.Raises OfBytes (decode : Decoder (LabelString side)) := by
  refine .bind (Decoder.word_raises 4) fun length => .ite (.pure _) (.ite (.pure _) (.ite ?_ (.throw (.invalid _))))
  exact (decodeLabels_raises length).bind fun word => .pure _

/-- No weight is refused for the stream that it is read from. -/
theorem WeightType.decode_raises (type : WeightType) :
    Parser.Raises OfBytes (Weight.decode : Decoder type.Carrier) := by
  induction type with
  | builtIn type =>
    match type with
    | .tropical _ => exact Number.decode_raises.map
    | .log _ => exact Number.decode_raises.map
    | .signedLog _ => exact SignedLog.decode_raises
    | .minMax _ => exact Number.decode_raises.map
    | .boolean => exact Boolean.decode_raises
    | .labelString _ => exact LabelString.decode_raises
  | product first second ihFirst ihSecond => exact ihFirst.bind fun _ => ihSecond.bind fun _ => .pure _

end Weights

namespace Reader
open ReadError

theorem ofDecoder_raises {α : Type} {decoder : Decoder α} (raises : Parser.Raises DecodeError.OfBytes decoder) :
    Parser.Raises OfBytes (ofDecoder decoder) := by
  intro input error failed
  unfold ofDecoder at failed
  cases taken : decoder input with
  | ok found =>
    rw [taken] at failed
    cases failed
  | error reason =>
    rw [taken] at failed
    cases failed
    exact (raises input reason taken).ofDecode

theorem word_raises (count : Nat) : Parser.Raises OfBytes (word count) := ofDecoder_raises (Decoder.word_raises count)

theorem header_raises : Parser.Raises OfBytes Header.read := by
  refine .bind .get fun input => .check (.tooShort ..) ?_
  refine .bind (word_raises 4) fun magic => .bind (word_raises 4) fun version => ?_
  refine .check .invalidMagic (.check (.unsupportedVersion version) ?_)
  refine .bind (word_raises 4) fun start => .bind (word_raises 4) fun reserved => ?_
  exact .bind (word_raises 8) fun states => .bind (word_raises 8) fun arcs => .pure _

theorem weightType_raises (expected : String) : Parser.Raises OfBytes (weightType expected) := by
  have name : Parser.Raises OfBytes Header.readTypeName := by
    refine .bind (word_raises 4) fun length => .bind (ofDecoder_raises (Decoder.take_raises length)) fun bytes => ?_
    cases Text.decode? bytes with
    | none => exact .throw (.corrupt _)
    | some name => exact .pure _
  exact .bind name fun actual => .ite (.throw (.weightTypeMismatch expected actual)) (.pure _)

theorem stateCount_raises (header : Header) : Parser.Raises OfBytes (stateCount header) :=
  .bind .get fun _ => .check .truncated (.check (.corrupt _) (.pure _))

theorem start_raises (header : Header) : Parser.Raises OfBytes (start header) := by
  unfold start
  split
  next => exact .pure _
  next => exact .ite (.pure _) (.throw (.corrupt _))

theorem label_raises : Parser.Raises OfBytes label := .bind (word_raises 4) fun _ => .pure _

section Weights

variable {W : Type} [Weight W] (weights : Parser.Raises DecodeError.OfBytes (Weight.decode : Decoder W))
include weights

theorem weight_raises : Parser.Raises OfBytes (weight : Reader W) := ofDecoder_raises weights

theorem arc_raises (size source : Nat) : Parser.Raises OfBytes (arc size source : Reader (Arc W)) := by
  refine .bind label_raises fun input => .bind label_raises fun output => .bind (word_raises 4) fun target => ?_
  refine .bind (.discard (word_raises 4)) fun _ => .bind (weight_raises weights) fun weight => ?_
  exact .check (.corrupt _) (.pure _)

theorem arcs_raises (size source count : Nat) (read : Array (Arc W)) :
    Parser.Raises OfBytes (arcs size source read count) := by
  induction count generalizing read with
  | zero => exact .pure _
  | succ count ih => exact .bind (arc_raises weights size source) fun arc => ih _

theorem final_raises (source : Nat) : Parser.Raises OfBytes (final source : Reader (Option W)) := by
  refine .bind (word_raises 1) fun marker => ?_
  split
  next => exact .pure _
  next => exact .bind (weight_raises weights) fun weight => .pure _
  next => exact .throw (.corrupt _)

theorem state_raises (size source : Nat) : Parser.Raises OfBytes (state size source : Reader (State W)) := by
  refine .bind (final_raises weights source) fun final => .bind (word_raises 4) fun count => ?_
  exact .bind (arcs_raises weights size source count #[]) fun arcs => .pure _

theorem states_raises (size count : Nat) (read : Array (State W)) :
    Parser.Raises OfBytes (states size read count) := by
  induction count generalizing read with
  | zero => exact .pure _
  | succ count ih => exact .bind (state_raises weights size read.size) fun state => ih _

theorem graph_raises : Parser.Raises OfBytes (graph : Reader (Graph W)) := by
  refine .bind header_raises fun header => .bind (weightType_raises _) fun _ => ?_
  refine .bind (stateCount_raises header) fun size => .bind (start_raises header) fun start => ?_
  refine .bind (states_raises weights size size #[]) fun states => .check (.corrupt _) (.bind .get fun rest => ?_)
  split
  next => exact .pure _
  next => exact .throw (.corrupt _)

end Weights

end Reader

theorem Graph.decode_raises {W : Type} [Weight W]
    (weights : Parser.Raises DecodeError.OfBytes (Weight.decode : Decoder W)) {data : Bytes} {error : ReadError}
    (refused : (Graph.decode data : Except ReadError (Graph W)) = .error error) : error.OfBytes :=
  Reader.graph_raises weights data error (Parser.run'_error.mp refused)

end Transducer
