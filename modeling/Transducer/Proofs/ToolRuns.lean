import Transducer.Tool.Basic

/-! What tools do in a world of files in memory. A run of a tool is put together from runs of its parts, and
it is told apart what a run leaves alone and what it writes. -/

namespace Transducer

theorem Program.run_bind {α β : Type} (program : Program α) (next : α → Program β) (world : World) :
    (program >>= next).run world = (next (program.run world).2).run (program.run world).1 := by
  change (program.bind next).run world = _
  induction program generalizing world with
  | done result => rfl
  | readInput follow ih => exact ih _ _
  | readFile path follow ih => exact ih _ _
  | writeFile path bytes follow ih => exact ih _ _
  | writeOutput bytes follow ih => exact ih _ _
  | report line follow ih => exact ih _
  | log line follow ih => exact ih _

namespace World

variable {before middle after : World} {target : Option String} {bytes : Bytes}

/-- All files and all output are as they were. -/
structure Keeps (before after : World) : Prop where
  file : after.file = before.file
  mayWrite : after.mayWrite = before.mayWrite
  output : after.output = before.output
  outputFault : after.outputFault = before.outputFault

theorem Keeps.refl (world : World) : world.Keeps world := ⟨rfl, rfl, rfl, rfl⟩

theorem Keeps.trans (first : before.Keeps middle) (second : middle.Keeps after) : before.Keeps after where
  file := second.file.trans first.file
  mayWrite := second.mayWrite.trans first.mayWrite
  output := second.output.trans first.output
  outputFault := second.outputFault.trans first.outputFault

theorem takeInput_keeps (world : World) : world.Keeps world.takeInput.1 := by
  unfold takeInput
  split
  next => exact ⟨rfl, rfl, rfl, rfl⟩
  next => exact .refl world

/-- What a tool reads, if it can read it. -/
def content? (world : World) (source : Tool.Source) : Option Bytes :=
  match source.path with
  | none => world.takeInput.2.toOption
  | some path => if path = "-" then world.takeInput.2.toOption else world.file path

def accepts (world : World) : Option String → Bool
  | none => world.outputFault.isNone
  | some path => world.mayWrite path

theorem Keeps.accepts (keeps : before.Keeps after) (target : Option String) :
    after.accepts target = before.accepts target := by
  cases target with
  | none => exact congrArg Option.isNone keeps.outputFault
  | some path => exact congrFun keeps.mayWrite path

/-- Exactly these bytes have been written, to the file as a whole or else behind the output. -/
def Wrote (before after : World) (bytes : Bytes) : Option String → Prop
  | none => after.file = before.file ∧ after.output = before.output ++ bytes
  | some path => after.file path = some bytes ∧ (∀ other, other ≠ path → after.file other = before.file other) ∧
      after.output = before.output

theorem Wrote.of_keeps (keeps : before.Keeps middle) (wrote : middle.Wrote after bytes target) :
    before.Wrote after bytes target := by
  cases target with
  | none => exact ⟨wrote.1.trans keeps.file, by rw [wrote.2, keeps.output]⟩
  | some path =>
    obtain ⟨written, others, output⟩ := wrote
    exact ⟨written, fun other apart => by rw [others other apart, keeps.file], output.trans keeps.output⟩

theorem putOut_cases (world : World) (bytes : Bytes) :
    (world.outputFault = none ∧ ∃ after, world.putOut bytes = (after, .ok ()) ∧ world.Wrote after bytes none) ∨
      ∃ reason, world.outputFault = some reason ∧ world.putOut bytes = (world, .error reason) := by
  unfold putOut
  cases fault : world.outputFault with
  | none => exact .inl ⟨rfl, _, rfl, rfl, rfl⟩
  | some reason => exact .inr ⟨reason, rfl, rfl⟩

theorem write_cases (world : World) (path : String) (bytes : Bytes) :
    (world.mayWrite path = true ∧
      ∃ after, world.write path bytes = (after, .ok ()) ∧ world.Wrote after bytes (some path)) ∨
      world.mayWrite path = false ∧ world.write path bytes = (world, .error missingFile) := by
  unfold write
  cases allowed : world.mayWrite path with
  | true =>
    rw [if_pos rfl]
    exact .inl ⟨rfl, _, rfl, if_pos rfl, fun other apart => if_neg apart, rfl⟩
  | false => exact .inr ⟨rfl, if_neg Bool.false_ne_true⟩

end World

namespace Tool

variable {α β : Type} {before middle after : World} {lines : List String}

/-- The tool has this outcome in a world, and turns it into the other. -/
def Gives (tool : Tool α) (before : World) (outcome : Except (List String) α) (after : World) : Prop :=
  Program.run before tool.run = (after, outcome)

namespace Gives

variable {tool : Tool α} {next : α → Tool β} {value : α} {outcome : Except (List String) β}

theorem pure (value : α) (world : World) : Gives (Pure.pure value) world (.ok value) world := rfl

theorem throw (lines : List String) (world : World) :
    Gives (MonadExcept.throw lines : Tool α) world (.error lines) world := rfl

theorem lift {program : Program α} (run : Program.run before program = (after, value)) :
    Gives (ExceptT.lift program) before (.ok value) after := by
  change Program.run before (program >>= fun value => .done (Except.ok value : Except (List String) α)) = _
  rw [Program.run_bind, run]
  rfl

theorem bind (first : tool.Gives before (.ok value) middle) (second : (next value).Gives middle outcome after) :
    Gives (tool >>= next) before outcome after := by
  change Program.run before (tool.run >>= ExceptT.bindCont next) = _
  rw [Program.run_bind, first]
  exact second

theorem bind_error (first : tool.Gives before (.error lines) middle) :
    Gives (tool >>= next) before (.error lines) middle := by
  change Program.run before (tool.run >>= ExceptT.bindCont next) = _
  rw [Program.run_bind, first]
  rfl

end Gives

theorem log_gives (line : String) (world : World) :
    ∃ after, (log line).Gives world (.ok ()) after ∧ world.Keeps after :=
  ⟨_, .lift rfl, rfl, rfl, rfl, rfl⟩

theorem orFatal_ok {ε : Type} (message : ε → String) (value : α) (world : World) :
    (orFatal message (.ok value)).Gives world (.ok value) world := .pure value world

theorem orFatal_error {ε : Type} (message : ε → String) (error : ε) (world : World) :
    (orFatal message (.error error) : Tool α).Gives world (.error ["error: " ++ message error]) world := .throw _ world

theorem readInput_gives {bytes : Bytes} (given : before.takeInput.2.toOption = some bytes) :
    ∃ after, readInput.Gives before (.ok bytes) after ∧ before.Keeps after := by
  obtain ⟨after, contents, taken⟩ : ∃ after contents, before.takeInput = (after, contents) := ⟨_, _, rfl⟩
  have keeps := before.takeInput_keeps
  rw [taken] at given keeps
  cases contents with
  | error reason => cases given
  | ok found =>
    obtain rfl := Option.some.inj given
    have run : Program.run before (.readInput .done) = (after, .ok found) := by
      rw [Program.run, taken]
      rfl
    exact ⟨after, .bind (.lift run) (orFatal_ok _ found after), keeps⟩

theorem Source.read_gives {source : Source} {bytes : Bytes} (given : before.content? source = some bytes) :
    ∃ after, source.read.Gives before (.ok bytes) after ∧ before.Keeps after := by
  obtain ⟨_ | path⟩ := source
  · exact readInput_gives given
  change (if path = "-" then before.takeInput.2.toOption else before.file path) = some bytes at given
  change ∃ after, (if path = "-" then readInput else readFile path : Tool Bytes).Gives before (.ok bytes) after ∧ _
  split at given
  next dash =>
    rw [if_pos dash]
    exact readInput_gives given
  next other =>
    rw [if_neg other]
    have run : Program.run before (.readFile path .done) = (before, .ok bytes) := by
      rw [Program.run, World.read, given]
      rfl
    exact ⟨before, .bind (.lift run) (orFatal_ok _ bytes before), .refl before⟩

theorem writeTo_gives {target : Option String} (accepted : before.accepts target = true) (bytes : Bytes) :
    ∃ after, (writeTo target bytes).Gives before (.ok ()) after ∧ before.Wrote after bytes target := by
  cases target with
  | none =>
    rcases before.putOut_cases bytes with ⟨_, after, put, wrote⟩ | ⟨reason, fault, _⟩
    · have run : Program.run before (.writeOutput bytes .done) = (after, .ok ()) := by
        rw [Program.run, put]
        rfl
      exact ⟨after, .bind (.lift run) (orFatal_ok _ () after), wrote⟩
    · cases (congrArg Option.isNone fault).symm.trans accepted
  | some path =>
    rcases before.write_cases path bytes with ⟨_, after, written, wrote⟩ | ⟨refused, _⟩
    · have run : Program.run before (.writeFile path bytes .done) = (after, .ok ()) := by
        rw [Program.run, written]
        rfl
      exact ⟨after, .bind (.lift run) (orFatal_ok _ () after), wrote⟩
    · cases refused.symm.trans accepted

theorem exitCode_ok {tool : Tool Unit} (given : tool.Gives before (.ok ()) after) :
    (exitCode tool).run before = (after, 0) := by
  rw [exitCode, Program.run_bind, given]
  rfl

theorem report_all (world : World) (lines : List String) :
    ∃ after, (lines.foldr Program.report (.done 1)).run world = (after, 1) ∧ world.Keeps after := by
  induction lines generalizing world with
  | nil => exact ⟨world, rfl, .refl world⟩
  | cons line lines ih =>
    obtain ⟨after, run, keeps⟩ := ih { world with reports := world.reports ++ [line] }
    exact ⟨after, run, keeps.file, keeps.mayWrite, keeps.output, keeps.outputFault⟩

theorem exitCode_error {tool : Tool Unit} (given : tool.Gives before (.error lines) middle)
    (keeps : before.Keeps middle) : ∃ after, (exitCode tool).run before = (after, 1) ∧ before.Keeps after := by
  obtain ⟨after, run, kept⟩ := report_all middle lines
  refine ⟨after, ?_, keeps.trans kept⟩
  rw [exitCode, Program.run_bind, given]
  exact run

end Tool

end Transducer
