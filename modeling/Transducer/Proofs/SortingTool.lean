import Transducer.Proofs.PrefixFreedom
import Transducer.Proofs.Sorting
import Transducer.Proofs.ToolRuns
import Transducer.Tool.Sort

/-! The sorting tool as a whole, from its arguments and the bytes that it reads to the bytes that it writes.
What it writes is sorted or cannot be, so another run of the tool writes the same. -/

namespace Transducer

theorem State.Storable.relocate {W : Type} [Weight W] [StoredWeight W] {state : State W} (storable : state.Storable)
    (place : StateId → StateId) : (state.relocate place).Storable where
  final := storable.final
  count := by simpa [State.relocate] using storable.count
  weights arc member := by
    obtain ⟨old, kept, rfl⟩ := Array.mem_map.mp member
    exact storable.weights old kept

namespace Graph

variable {W : Type} {graph result : Graph W}

/-- The graph is sorted as far as it can be. -/
inductive Settled (graph : Graph W) : Graph W → Prop
  | sorted (place : StateId → StateId) (result : Graph W) (acyclic : ¬ graph.Cyclic) (ascending : result.Ascending)
      (renumbered : graph.Renumbered place result) : Settled graph result
  | cyclic (cyclic : graph.Cyclic) : Settled graph graph

theorem Settled.wellFormed (settled : graph.Settled result) (formed : graph.WellFormed) : result.WellFormed := by
  cases settled with
  | sorted place _ acyclic ascending renumbered => exact renumbered.wellFormed formed
  | cyclic => exact formed

theorem exists_settled (formed : graph.WellFormed) :
    ∃ sorted, graph.sorted? = .ok sorted ∧ graph.Settled (sorted.getD graph) := by
  rcases sorted?_cases formed with ⟨cyclic, found⟩ | ⟨acyclic, result, place, found, renumbered, ascending⟩
  · exact ⟨none, found, .cyclic cyclic⟩
  · exact ⟨some result, found, .sorted place result acyclic ascending renumbered⟩

theorem Settled.stays (settled : graph.Settled result) (formed : graph.WellFormed) {sorted : Option (Graph W)}
    (found : result.sorted? = .ok sorted) : sorted.getD result = result := by
  cases settled with
  | sorted place _ acyclic ascending renumbered =>
    obtain rfl := Except.ok.inj (found.symm.trans (sorted?_of_ascending ascending))
    rfl
  | cyclic cyclic =>
    rcases sorted?_cases formed with ⟨-, same⟩ | ⟨acyclic, -⟩
    · obtain rfl := Except.ok.inj (found.symm.trans same)
      rfl
    · exact absurd cyclic acyclic

theorem Settled.of_cyclic (settled : graph.Settled result) (cyclic : graph.Cyclic) : result = graph := by
  cases settled with
  | sorted place _ acyclic ascending renumbered => exact absurd cyclic acyclic
  | cyclic => rfl

section Stored

variable [Weight W] [StoredWeight W]

theorem Renumbered.storable {place : StateId → StateId} (renumbered : graph.Renumbered place result)
    (storable : graph.Storable) : result.Storable := by
  refine ⟨renumbered.sized ▸ storable.size, fun state member => ?_⟩
  obtain ⟨target, found⟩ := Array.getElem?_of_mem member
  obtain ⟨s, old, before, -, rfl⟩ := renumbered.origin found
  exact (storable.states old (Array.mem_of_getElem? before)).relocate place

theorem Settled.storable (settled : graph.Settled result) (storable : graph.Storable) : result.Storable := by
  cases settled with
  | sorted place _ acyclic ascending renumbered => exact renumbered.storable storable
  | cyclic => exact storable

end Stored

end Graph

namespace TypedGraph

variable {data : Bytes} {typed : TypedGraph}

theorem decode_settles (decoded : decode data = .ok typed) :
    typed.graph.WellFormed ∧ typed.graph.Storable ∧ Spells typed.graph.fields data [] := by
  obtain ⟨name, peeked, known, read⟩ := decode_ok.mp decoded
  obtain ⟨named, formed, storable, spelled⟩ := Graph.decode_ok.mp read
  exact ⟨formed, storable, spelled⟩

/-- What is written of a graph over a built-in type is read as the graph with its type. -/
theorem decode_written (typed : TypedGraph) (formed : typed.graph.WellFormed) (storable : typed.graph.Storable) :
    decode (written typed.graph.fields) = .ok typed := by
  obtain ⟨type, graph⟩ := typed
  obtain ⟨_, spelled, read⟩ := Graph.written_reads type.nameable formed storable
  exact decode_ok.mpr ⟨_, Graph.peekTypeName_of_spells type.nameable formed storable spelled, type.ofName?_name, read⟩

theorem sorted?_ok {sorted : Option (Graph typed.type.Carrier)} (found : typed.graph.sorted? = .ok sorted) :
    typed.sorted? = .ok (sorted.map fun graph => { typed with graph }) := by
  simp only [TypedGraph.sorted?, found]
  rfl

end TypedGraph

namespace Tool.Sort

variable {arguments files : List String} {world before after : World} {data bytes : Bytes} {typed : TypedGraph}

/-- The arguments name these files beside the flag for more messages, and nothing else. -/
structure Accepted (arguments files : List String) : Prop where
  helpless : ∀ argument ∈ arguments, argument ≠ "--help" ∧ argument ≠ "-h"
  kept : files = arguments.filter fun argument => argument ≠ "-v" ∧ argument ≠ "--verbose"
  known : ∀ file ∈ files, Arguments.isOption file = false
  few : files.length ≤ 2

def source (files : List String) : Source := ⟨files[0]?⟩

def target (files : List String) : Option String := files[1]?

theorem Accepted.tool_eq (accepted : Accepted arguments files) :
    tool arguments = exitCode (sort files (Arguments.takeFlag ["-v", "--verbose"] arguments).1) := by
  have helpless : Arguments.wantsHelp arguments = false := by
    simpa [Arguments.wantsHelp] using accepted.helpless
  have kept : (Arguments.takeFlag ["-v", "--verbose"] arguments).2 = files := by
    simp [Arguments.takeFlag, accepted.kept]
  have listed : Arguments.files files = .ok files := by
    have none : files.find? Arguments.isOption = none := by simpa using accepted.known
    rw [Arguments.files, none]
  unfold tool
  rw [helpless]
  simp only [Bool.false_eq_true, if_false, kept, listed]
  rfl

theorem Accepted.sourceAndTarget_gives (accepted : Accepted arguments files) (world : World) :
    (sourceAndTarget usage files).Gives world (.ok (source files, target files)) world := by
  have few := accepted.few
  match files, few with
  | [], _ => exact .pure _ world
  | [_], _ => exact .pure _ world
  | [_, _], _ => exact .pure _ world

theorem Accepted.refuses (accepted : Accepted arguments files) (given : world.content? (source files) = some data)
    {error : ReadError} (refused : TypedGraph.decode data = .error error) :
    ∃ after, (tool arguments).run world = (after, 1) ∧ world.Keeps after := by
  obtain ⟨middle, read, keeps⟩ := Source.read_gives given
  have fails : (sort files (Arguments.takeFlag ["-v", "--verbose"] arguments).1).Gives world
      (.error ["error: " ++ ((source files).name ++ ": " ++ error.message)]) middle := by
    refine .bind (accepted.sourceAndTarget_gives world) (.bind read (.bind_error ?_))
    rw [refused]
    exact orFatal_error _ error middle
  rw [accepted.tool_eq]
  exact exitCode_error fails keeps

/-- The end of a run, where the sorted graph is written or else the graph as it was read. -/
theorem ending_gives {sorted : Option (Graph typed.type.Carrier)} {path : Option String}
    (encoded : (sorted.getD typed.graph).encode = .ok bytes) (writable : before.accepts path = true) :
    ∃ after, Gives
      (match sorted.map fun graph => { typed with graph : TypedGraph } with
      | some sorted => do writeTo path (← orFatal WriteError.message sorted.encode)
      | none => do
        log cyclicWarning
        writeTo path (← orFatal WriteError.message typed.encode)) before (.ok ()) after ∧
      before.Wrote after bytes path := by
  cases sorted with
  | some sorted =>
    obtain ⟨after, gives, wrote⟩ := writeTo_gives writable bytes
    have encodes : TypedGraph.encode { typed with graph := sorted } = .ok bytes := encoded
    refine ⟨after, .bind ?_ gives, wrote⟩
    rw [encodes]
    exact orFatal_ok _ bytes before
  | none =>
    obtain ⟨middle, warned, keeps⟩ := log_gives cyclicWarning before
    obtain ⟨after, gives, wrote⟩ := writeTo_gives ((keeps.accepts path).trans writable) bytes
    have encodes : typed.encode = .ok bytes := encoded
    refine ⟨after, .bind warned (.bind ?_ gives), .of_keeps keeps wrote⟩
    rw [encodes]
    exact orFatal_ok _ bytes middle

theorem Accepted.writes (accepted : Accepted arguments files) (given : world.content? (source files) = some data)
    (decoded : TypedGraph.decode data = .ok typed) (writable : world.accepts (target files) = true)
    {sorted : Option (Graph typed.type.Carrier)} (found : typed.graph.sorted? = .ok sorted)
    (encoded : (sorted.getD typed.graph).encode = .ok bytes) :
    ∃ after, (tool arguments).run world = (after, 0) ∧ world.Wrote after bytes (target files) := by
  obtain ⟨read, taken, keeps⟩ := Source.read_gives given
  have known (before : World) : (orFatal (fun error => (source files).name ++ ": " ++ error.message)
      (TypedGraph.decode data)).Gives before (.ok typed) before := by
    rw [decoded]
    exact orFatal_ok _ typed before
  have chosen (before : World) : (orFatal GraphError.message typed.sorted?).Gives before
      (.ok (sorted.map fun graph => { typed with graph })) before := by
    rw [TypedGraph.sorted?_ok found]
    exact orFatal_ok _ _ before
  rw [accepted.tool_eq]
  suffices writes : ∃ after,
      (sort files (Arguments.takeFlag ["-v", "--verbose"] arguments).1).Gives world (.ok ()) after ∧
      world.Wrote after bytes (target files) by
    obtain ⟨after, gives, wrote⟩ := writes
    exact ⟨after, exitCode_ok gives, wrote⟩
  cases (Arguments.takeFlag ["-v", "--verbose"] arguments).1 with
  | false =>
    obtain ⟨after, ending, wrote⟩ := ending_gives encoded ((keeps.accepts (target files)).trans writable)
    refine ⟨after, .bind (accepted.sourceAndTarget_gives world) (.bind taken (.bind (known read) ?_)),
      .of_keeps keeps wrote⟩
    exact .bind (chosen read) ending
  | true =>
    obtain ⟨middle, counted, kept⟩ := log_gives s!"read {typed.graph.size} states and {typed.graph.totalArcs} arcs" read
    obtain ⟨after, ending, wrote⟩ := ending_gives encoded (((keeps.trans kept).accepts (target files)).trans writable)
    refine ⟨after, .bind (accepted.sourceAndTarget_gives world) (.bind taken (.bind (known read) ?_)),
      .of_keeps (keeps.trans kept) wrote⟩
    exact .bind counted (.bind (chosen middle) ending)

/-- Whatever the tool reads, it refuses bytes that are no graph and writes nothing. Of a graph it writes the graph
sorted, or the graph itself if that has a cycle, whose bytes are then the same but for words that nothing looks at
and the signs of signed logarithms of zero. When it reads what it has written it writes the same bytes again. -/
theorem sorting_runs (accepted : Accepted arguments files) (given : world.content? (source files) = some data) :
    (∀ error, TypedGraph.decode data = .error error →
      ∃ after, (tool arguments).run world = (after, 1) ∧ world.Keeps after) ∧
    ∀ typed, TypedGraph.decode data = .ok typed → world.accepts (target files) = true →
      ∃ after bytes result, (tool arguments).run world = (after, 0) ∧
        world.Wrote after bytes (target files) ∧ result.encode = .ok bytes ∧ typed.graph.Settled result ∧
        (typed.graph.Cyclic → bytes.length = data.length ∧ bytes = written typed.graph.fields ∧
          Spells typed.graph.fields data []) ∧
        ∀ arguments files world, Accepted arguments files → world.content? (source files) = some bytes →
          world.accepts (target files) = true →
          ∃ after, (tool arguments).run world = (after, 0) ∧ world.Wrote after bytes (target files) := by
  refine ⟨fun error refused => accepted.refuses given refused, fun typed decoded writable => ?_⟩
  obtain ⟨formed, storable, spelled⟩ := TypedGraph.decode_settles decoded
  obtain ⟨sorted, found, settled⟩ := Graph.exists_settled formed
  have resultFormed := settled.wellFormed formed
  have resultStorable := settled.storable storable
  obtain ⟨encoded, -, -⟩ := Graph.written_reads typed.type.nameable resultFormed resultStorable
  obtain ⟨after, run, wrote⟩ := accepted.writes given decoded writable found encoded
  refine ⟨after, _, sorted.getD typed.graph, run, wrote, encoded, settled, fun cyclic => ?_, ?_⟩
  · have same := settled.of_cyclic cyclic
    rw [same]
    exact ⟨spelled.length.symm, rfl, spelled⟩
  · intro arguments files world accepted given writable
    obtain ⟨again, found, -⟩ := Graph.exists_settled resultFormed
    have read := TypedGraph.decode_written ⟨typed.type, sorted.getD typed.graph⟩ resultFormed resultStorable
    refine accepted.writes given read writable found ?_
    rw [settled.stays formed found]
    exact encoded

theorem loop_cyclic : loop.Cyclic :=
  ⟨0, .single ⟨⟨3, 0, .one, 0⟩, List.mem_cons_self, rfl⟩⟩

/-- A loop goes from standard input to a file as it is, and from there to standard output. -/
theorem loop_runs :
    (∃ after, (tool []).run {} = (after, 1) ∧ after.output = []) ∧
    ∃ after last, (tool ["-", "-v", "loop.fst"]).run { input := written loop.fields } = (after, 0) ∧
      after.file "loop.fst" = some (written loop.fields) ∧ (tool ["loop.fst"]).run { file := after.file } = (last, 0) ∧
      last.output = written loop.fields := by
  have formed : loop.WellFormed := ⟨by rintro s ⟨⟩; decide, by decide⟩
  have read := TypedGraph.decode_written ⟨.boolean, loop⟩ formed loop_storable
  constructor
  · have accepted : Accepted [] [] := ⟨by decide, rfl, by decide, by decide⟩
    have given : World.content? {} (source []) = some [] := rfl
    obtain ⟨after, run, keeps⟩ := (sorting_runs accepted given).1 (.tooShort 32 0) rfl
    exact ⟨after, run, keeps.output⟩
  · have accepted : Accepted ["-", "-v", "loop.fst"] ["-", "loop.fst"] := ⟨by simp, by simp, by decide +kernel, by decide⟩
    have next : Accepted ["loop.fst"] ["loop.fst"] := ⟨by simp, by simp, by decide +kernel, by decide⟩
    have given : World.content? { input := written loop.fields } (source ["-", "loop.fst"]) =
      some (written loop.fields) := rfl
    obtain ⟨after, bytes, result, run, wrote, -, -, same, again⟩ := (sorting_runs accepted given).2 _ read rfl
    obtain ⟨-, rfl, -⟩ := same loop_cyclic
    obtain ⟨last, repeated, output⟩ := again _ _ { file := after.file } next wrote.1 rfl
    exact ⟨after, last, run, wrote.1, repeated, output.2⟩

end Tool.Sort

end Transducer
