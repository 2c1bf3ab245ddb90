import Transducer.Main
import Transducer.Proofs.Parsing
import Transducer.Proofs.ToolRuns

/-! Tools that fail leave nothing behind. Whatever the world answers it, a tool writes as its last action or fails
before, so where it fails nothing has been written. When its arguments are refused it has not read anything either. -/

namespace Transducer

namespace Program

variable {α β : Type} {mayRead mayWrite : Prop} {success : α} {program : Program α} {next : α → Program β}
  {before world : World}

/-- The program reads and writes only if it may. It may always tell the user something. -/
def Limited (mayRead mayWrite : Prop) : Program α → Prop
  | done _ => True
  | readInput next => mayRead ∧ ∀ contents, (next contents).Limited mayRead mayWrite
  | readFile _ next => mayRead ∧ ∀ contents, (next contents).Limited mayRead mayWrite
  | writeFile _ _ next => mayWrite ∧ ∀ outcome, (next outcome).Limited mayRead mayWrite
  | writeOutput _ next => mayWrite ∧ ∀ outcome, (next outcome).Limited mayRead mayWrite
  | report _ next => next.Limited mayRead mayWrite
  | log _ next => next.Limited mayRead mayWrite

/-- Whatever is read, nothing is written. -/
abbrev Harmless (program : Program α) : Prop := program.Limited True False

/-- Nothing is read. -/
abbrev Blind (program : Program α) : Prop := program.Limited False True

theorem Limited.bind (first : program.Limited mayRead mayWrite)
    (rest : ∀ value, (next value).Limited mayRead mayWrite) : (program.bind next).Limited mayRead mayWrite := by
  induction program with
  | done value => exact rest value
  | readInput follow ih => exact ⟨first.1, fun contents => ih contents (first.2 contents)⟩
  | readFile path follow ih => exact ⟨first.1, fun contents => ih contents (first.2 contents)⟩
  | writeFile path bytes follow ih => exact ⟨first.1, fun outcome => ih outcome (first.2 outcome)⟩
  | writeOutput bytes follow ih => exact ⟨first.1, fun outcome => ih outcome (first.2 outcome)⟩
  | report line follow ih => exact ih first
  | log line follow ih => exact ih first

/-- The program writes before it succeeds and otherwise does not succeed. It does nothing more once it has written,
and a write that fails counts for nothing. -/
def Atomic (success : α) : Program α → Prop
  | done value => value ≠ success
  | readInput next => ∀ contents, (next contents).Atomic success
  | readFile _ next => ∀ contents, (next contents).Atomic success
  | writeFile _ _ next => next (.ok ()) = done success ∧ ∀ reason, (next (.error reason)).Atomic success
  | writeOutput _ next => next (.ok ()) = done success ∧ ∀ reason, (next (.error reason)).Atomic success
  | report _ next => next.Atomic success
  | log _ next => next.Atomic success

theorem Harmless.bind_atomic {success : β} (first : program.Harmless) (rest : ∀ value, (next value).Atomic success) :
    (program.bind next).Atomic success := by
  induction program with
  | done value => exact rest value
  | readInput follow ih => exact fun contents => ih contents (first.2 contents)
  | readFile path follow ih => exact fun contents => ih contents (first.2 contents)
  | writeFile path bytes follow ih => exact first.1.elim
  | writeOutput bytes follow ih => exact first.1.elim
  | report line follow ih => exact ih first
  | log line follow ih => exact ih first

/-- In every world the program succeeds and has written once, or it fails and files and output are as they were. -/
theorem Atomic.wrote_or_keeps (atomic : program.Atomic success) (kept : before.Keeps world) :
    (program.run world).2 = success ∧ (∃ bytes target, before.Wrote (program.run world).1 bytes target) ∨
      (program.run world).2 ≠ success ∧ before.Keeps (program.run world).1 := by
  induction program generalizing world with
  | done value => exact .inr ⟨atomic, kept⟩
  | readInput follow ih => exact ih _ (atomic _) (kept.trans world.takeInput_keeps)
  | readFile path follow ih => exact ih _ (atomic _) kept
  | writeFile path bytes follow ih =>
    obtain ⟨written, refused⟩ := atomic
    rcases world.write_cases path bytes with ⟨_, after, done, wrote⟩ | ⟨_, failed⟩
    · simp only [run, done, written]
      exact .inl ⟨trivial, bytes, some path, .of_keeps kept wrote⟩
    · rw [run, failed]
      exact ih _ (refused _) kept
  | writeOutput bytes follow ih =>
    obtain ⟨written, refused⟩ := atomic
    rcases world.putOut_cases bytes with ⟨_, after, done, wrote⟩ | ⟨reason, _, failed⟩
    · simp only [run, done, written]
      exact .inl ⟨trivial, bytes, none, .of_keeps kept wrote⟩
    · rw [run, failed]
      exact ih _ (refused _) kept
  | report line follow ih => exact ih atomic ⟨kept.file, kept.mayWrite, kept.output, kept.outputFault⟩
  | log line follow ih => exact ih atomic ⟨kept.file, kept.mayWrite, kept.output, kept.outputFault⟩

end Program

namespace Tool

variable {α β ω : Type} {mayRead mayWrite : Prop} {tool : Tool α} {next : α → Tool β}

def Limited (mayRead mayWrite : Prop) (tool : Tool α) : Prop := tool.run.Limited mayRead mayWrite

abbrev Harmless (tool : Tool α) : Prop := tool.Limited True False

abbrev Blind (tool : Tool α) : Prop := tool.Limited False True

def Atomic (tool : Tool Unit) : Prop := tool.run.Atomic (.ok ())

namespace Limited

theorem pure (value : α) : Limited mayRead mayWrite (Pure.pure value) := trivial

theorem throw (lines : List String) : Limited mayRead mayWrite (MonadExcept.throw lines : Tool α) := trivial

theorem bind (first : tool.Limited mayRead mayWrite) (rest : ∀ value, (next value).Limited mayRead mayWrite) :
    (tool >>= next).Limited mayRead mayWrite :=
  Program.Limited.bind first fun outcome => match outcome with
    | .ok value => rest value
    | .error _ => trivial

theorem orFatal {ε : Type} (message : ε → String) (result : Except ε α) :
    Limited mayRead mayWrite (Tool.orFatal message result) := by
  cases result with
  | ok value => exact pure value
  | error error => exact throw _

theorem orUsage (usage : String) (result : Except UsageError α) :
    Limited mayRead mayWrite (Tool.orUsage usage result) := by
  cases result with
  | ok value => exact pure value
  | error error => exact throw _

theorem log (line : String) : Limited mayRead mayWrite (Tool.log line) := trivial

theorem sourceAndTarget (usage : String) (files : List String) :
    Limited mayRead mayWrite (Tool.sourceAndTarget usage files) := by
  unfold Tool.sourceAndTarget
  split
  · exact pure _
  · exact pure _
  · exact pure _
  · exact throw _

end Limited

theorem readFile_harmless (path : String) : (readFile path).Harmless :=
  .bind ⟨trivial, fun _ => trivial⟩ fun _ => .orFatal _ _

theorem readInput_harmless : readInput.Harmless :=
  .bind ⟨trivial, fun _ => trivial⟩ fun _ => .orFatal _ _

theorem Source.read_harmless (source : Source) : source.read.Harmless := by
  unfold Source.read
  split
  next => exact readInput_harmless
  next path _ =>
    split
    next => exact readInput_harmless
    next => exact readFile_harmless path

theorem loadSymbols_harmless (path : Option String) : (loadSymbols path).Harmless := by
  cases path with
  | none => exact .pure none
  | some path =>
    refine .bind (readFile_harmless path) fun bytes => ?_
    split
    next => exact .throw _
    next => exact .bind (.orFatal _ _) fun symbols => .pure _

theorem writeTo_atomic (target : Option String) (bytes : Bytes) : (writeTo target bytes).Atomic := by
  cases target with
  | none => exact ⟨rfl, nofun⟩
  | some path => exact ⟨rfl, nofun⟩

namespace Atomic

theorem throw (lines : List String) : Atomic (MonadExcept.throw lines) := nofun

theorem bind {next : α → Tool Unit} (first : tool.Harmless) (rest : ∀ value, (next value).Atomic) :
    (tool >>= next).Atomic :=
  Program.Harmless.bind_atomic first fun outcome => match outcome with
    | .ok value => rest value
    | .error _ => nofun

theorem logged {verbose : Bool} {line : String} {rest : Unit → Tool Unit} (atomic : (rest ()).Atomic) :
    Atomic (if verbose then log line >>= rest else rest ()) := by
  cases verbose with
  | false => exact atomic
  | true => exact .bind (.log line) fun _ => atomic

/-- The last step of a tool, which writes what it has or fails for want of it. -/
theorem write {ε : Type} (message : ε → String) (result : Except ε Bytes) (target : Option String) :
    Atomic (do writeTo target (← orFatal message result)) :=
  .bind (.orFatal message result) fun bytes => writeTo_atomic target bytes

end Atomic

theorem Atomic.exitCode {tool : Tool Unit} (atomic : tool.Atomic) (world : World) :
    ∃ after code, (exitCode tool).run world = (after, code) ∧
      (code = 0 ∧ (∃ bytes target, world.Wrote after bytes target) ∨ code = 1 ∧ world.Keeps after) := by
  have ends := Program.Atomic.wrote_or_keeps atomic (.refl world)
  rcases given : tool.run.run world with ⟨middle, lines | ⟨⟩⟩
  · rw [given] at ends
    rcases ends with ⟨done, -⟩ | ⟨-, keeps⟩
    · cases done
    · obtain ⟨after, run, keeps⟩ := exitCode_error given keeps
      exact ⟨after, 1, run, .inr ⟨rfl, keeps⟩⟩
  · rw [given] at ends
    rcases ends with ⟨-, wrote⟩ | ⟨failed, -⟩
    · exact ⟨middle, 0, exitCode_ok given, .inl ⟨rfl, wrote⟩⟩
    · exact absurd rfl failed

theorem printLines_blind (lines : List String) : (printLines lines).Blind := by
  refine ⟨trivial, fun outcome => ?_⟩
  cases outcome with
  | ok done => trivial
  | error reason => trivial

theorem printLines_ends (lines : List String) (world : World) :
    ∃ after code, (printLines lines).run world = (after, code) ∧
      (code = 0 ∧ (∃ bytes target, world.Wrote after bytes target) ∨
        code = panicCode ∧ world.Keeps after ∧ world.outputFault.isSome = true) := by
  rcases world.putOut_cases (Text.encode (lines.flatMap fun line => line.toList ++ ['\n'])) with
    ⟨_, after, done, wrote⟩ | ⟨reason, fault, failed⟩
  · refine ⟨after, 0, ?_, .inl ⟨rfl, _, none, wrote⟩⟩
    rw [printLines, Program.run, done]
    rfl
  · let told : World := { world with reports := world.reports ++ [s!"failed printing to stdout: {reason}"] }
    have keeps : world.Keeps told := ⟨rfl, rfl, rfl, rfl⟩
    refine ⟨told, panicCode, ?_, .inr ⟨rfl, keeps, Option.isSome_of_eq_some fault⟩⟩
    rw [printLines, Program.run, failed]
    rfl

/-- The common course of the tools. -/
def launch (help : List String) (usage : String) (parse : List String → Except UsageError ω)
    (work : ω → Bool → Tool Unit) (arguments : List String) : Program Nat :=
  if Arguments.wantsHelp arguments then printLines help
  else
    let (verbose, arguments) := Arguments.takeFlag ["-v", "--verbose"] arguments
    exitCode do work (← orUsage usage (parse arguments)) verbose

theorem Compile.tool_eq : Compile.tool = launch help usage Options.ofArguments compile := rfl

theorem Print.tool_eq : Print.tool = launch help usage Options.ofArguments print := rfl

theorem Sort.tool_eq : Sort.tool = launch help usage Arguments.files sort := rfl

theorem Compile.compile_atomic (options : Options) (verbose : Bool) : (compile options verbose).Atomic := by
  refine .bind (.sourceAndTarget _ _) fun files => ?_
  refine .bind (loadSymbols_harmless _) fun input => .bind (loadSymbols_harmless _) fun output => ?_
  refine .bind (Source.read_harmless _) fun bytes => ?_
  cases Text.decode? bytes with
  | none => exact .throw _
  | some text => exact .bind (.orFatal _ _) fun typed => .logged (.write _ _ _)

theorem Print.print_atomic (options : Options) (verbose : Bool) : (print options verbose).Atomic := by
  refine .bind (.sourceAndTarget _ _) fun files => ?_
  refine .bind (loadSymbols_harmless _) fun input => .bind (loadSymbols_harmless _) fun output => ?_
  refine .bind (Source.read_harmless _) fun bytes => .bind (.orFatal _ _) fun typed => .logged ?_
  exact .bind (.orFatal _ _) fun text => writeTo_atomic _ _

theorem Sort.sort_atomic (files : List String) (verbose : Bool) : (sort files verbose).Atomic := by
  refine .bind (.sourceAndTarget _ _) fun files => ?_
  refine .bind (Source.read_harmless _) fun bytes => .bind (.orFatal _ _) fun typed => .logged ?_
  refine .bind (.orFatal _ _) fun sorted => ?_
  cases sorted with
  | some sorted => exact .write _ _ _
  | none => exact .bind (.log _) fun _ => .write _ _ _

/-- What is left of the arguments when each of the options is taken out of them with its value. -/
def leftOver (options arguments : List String) : Except UsageError (List String) :=
  options.foldlM (fun arguments option => Prod.snd <$> Arguments.takeOption option arguments) arguments

/-- An option lacks its value, or what is left is an option that the tool does not have or is more than two files. -/
inductive Misused (options arguments : List String) : Prop
  | incomplete {error : UsageError} (failed : leftOver options arguments = .error error)
  | unknown {left : List String} {argument : String} (rest : leftOver options arguments = .ok left)
      (member : argument ∈ left) (dashed : Arguments.isOption argument = true)
  | many {left : List String} (rest : leftOver options arguments = .ok left) (more : 2 < left.length)

/-- What is read from the arguments has as its files what is left of them, and no option is among these. -/
def Parses (options : List String) (parse : List String → Except UsageError ω) (files : ω → List String) : Prop :=
  ∀ arguments parsed, parse arguments = .ok parsed →
    leftOver options arguments = .ok (files parsed) ∧ ∀ file ∈ files parsed, Arguments.isOption file = false

theorem files_ok {arguments files : List String} (given : Arguments.files arguments = .ok files) :
    files = arguments ∧ ∀ file ∈ files, Arguments.isOption file = false := by
  unfold Arguments.files at given
  split at given
  next => cases given
  next none =>
    cases given
    exact ⟨rfl, by simpa using none⟩

theorem leftOver_cons {option : String} {options arguments rest : List String} {value : Option String}
    (taken : Arguments.takeOption option arguments = .ok (value, rest)) :
    leftOver (option :: options) arguments = leftOver options rest := by
  rw [leftOver, List.foldlM_cons, taken]
  rfl

def Compile.valued : List String := ["--weight-type", "--isymbols", "--osymbols"]

def Print.valued : List String := ["--isymbols", "--osymbols"]

theorem Compile.parses : Parses valued Options.ofArguments Options.files := by
  intro arguments parsed given
  simp only [Options.ofArguments, except_bind_ok] at given
  obtain ⟨⟨_, _⟩, first, ⟨_, _⟩, second, ⟨_, _⟩, third, files, listed, ⟨⟩⟩ := given
  obtain ⟨rfl, known⟩ := files_ok listed
  exact ⟨by rw [valued, leftOver_cons first, leftOver_cons second, leftOver_cons third]; rfl, known⟩

theorem Print.parses : Parses valued Options.ofArguments Options.files := by
  intro arguments parsed given
  simp only [Options.ofArguments, except_bind_ok] at given
  obtain ⟨⟨_, _⟩, first, ⟨_, _⟩, second, files, listed, ⟨⟩⟩ := given
  obtain ⟨rfl, known⟩ := files_ok listed
  exact ⟨by rw [valued, leftOver_cons first, leftOver_cons second]; rfl, known⟩

theorem Sort.parses : Parses [] Arguments.files id := by
  intro arguments parsed given
  obtain ⟨rfl, known⟩ := files_ok given
  exact ⟨rfl, known⟩

theorem sourceAndTarget_many (usage : String) {files : List String} (more : 2 < files.length) :
    sourceAndTarget usage files = throw [usage] := by
  match files with
  | [] | [_] | [_, _] => simp at more
  | _ :: _ :: _ :: _ => rfl

section Launch

variable {help options arguments : List String} {usage : String} {parse : List String → Except UsageError ω}
  {files : ω → List String} {work : ω → Bool → Tool Unit}

/-- Arguments that are misused are refused before anything is read. -/
theorem launch_refuses (parses : Parses options parse files)
    (refuses : ∀ parsed verbose, 2 < (files parsed).length → work parsed verbose = throw [usage])
    (helpless : Arguments.wantsHelp arguments = false)
    (misused : Misused options (Arguments.takeFlag ["-v", "--verbose"] arguments).2) :
    ∃ lines, launch help usage parse work arguments = exitCode (throw lines) := by
  unfold launch
  rw [helpless, if_neg Bool.false_ne_true]
  simp only
  cases read : parse (Arguments.takeFlag ["-v", "--verbose"] arguments).2 with
  | error error => exact ⟨_, rfl⟩
  | ok parsed =>
    obtain ⟨left, known⟩ := parses _ _ read
    cases misused with
    | incomplete failed => cases left.symm.trans failed
    | unknown rest member dashed =>
      cases left.symm.trans rest
      cases (known _ member).symm.trans dashed
    | many rest more =>
      cases left.symm.trans rest
      exact ⟨[usage], congrArg exitCode (refuses parsed _ more)⟩

/-- What a tool does with its arguments, whatever they are. -/
structure Course (options : List String) (tool : List String → Program Nat) : Prop where
  helps : ∀ arguments, Arguments.wantsHelp arguments = true → ∃ lines, tool arguments = printLines lines
  works : ∀ arguments, Arguments.wantsHelp arguments = false →
    ∃ work : Tool Unit, tool arguments = exitCode work ∧ work.Atomic
  refuses : ∀ arguments, Arguments.wantsHelp arguments = false →
    Misused options (Arguments.takeFlag ["-v", "--verbose"] arguments).2 →
    ∃ lines, tool arguments = exitCode (throw lines)

theorem launch_course (works : ∀ parsed verbose, (work parsed verbose).Atomic) (parses : Parses options parse files)
    (refuses : ∀ parsed verbose, 2 < (files parsed).length → work parsed verbose = throw [usage]) :
    Course options (launch help usage parse work) where
  helps arguments helped := ⟨help, by rw [launch, helped, if_pos rfl]⟩
  works arguments helpless := by
    rw [launch, helpless, if_neg Bool.false_ne_true]
    exact ⟨_, rfl, .bind (.orUsage _ _) fun options => works options _⟩
  refuses _ helpless misused := launch_refuses parses refuses helpless misused

end Launch

theorem exitCode_blind {tool : Tool Unit} (blind : tool.Blind) : (exitCode tool).Blind := by
  refine Program.Limited.bind blind fun outcome => ?_
  cases outcome with
  | ok done => trivial
  | error lines =>
    show (lines.foldr Program.report (.done 1)).Blind
    induction lines with
    | nil => trivial
    | cons line lines ih => exact ih

theorem compile_course : Course Compile.valued Compile.tool := by
  rw [Compile.tool_eq]
  refine launch_course Compile.compile_atomic Compile.parses fun parsed verbose more => ?_
  rw [Compile.compile, sourceAndTarget_many Compile.usage more]
  rfl

theorem print_course : Course Print.valued Print.tool := by
  rw [Print.tool_eq]
  refine launch_course Print.print_atomic Print.parses fun parsed verbose more => ?_
  rw [Print.print, sourceAndTarget_many Print.usage more]
  rfl

theorem sort_course : Course [] Sort.tool := by
  rw [Sort.tool_eq]
  refine launch_course Sort.sort_atomic Sort.parses fun files verbose more => ?_
  have many : sourceAndTarget Sort.usage files = throw [Sort.usage] := sourceAndTarget_many Sort.usage more
  rw [Sort.sort, many]
  rfl

/-- The options of each tool that take a value. -/
def valuedOptions : String → List String
  | "fst-compile" => Compile.valued
  | "fst-print" => Print.valued
  | _ => []

theorem course_of_named {name : String} {tool : List String → Program Nat} (known : toolNamed? name = some tool) :
    Course (valuedOptions name) tool := by
  unfold toolNamed? at known
  split at known
  next => cases known; exact compile_course
  next => cases known; exact print_course
  next => cases known; exact sort_course
  next => cases known

/-- Whatever its arguments and the world, a tool ends with the code 0 when it has written, and that once, or else with
the code 1 when it has changed no file and given no output. Only help that cannot be put out ends it with another code,
and then too nothing is written. If its arguments have an unknown option or too many files it does not read anything
either. -/
theorem tools_all_or_nothing {name : String} {tool : List String → Program Nat} (known : toolNamed? name = some tool)
    (arguments : List String) :
    (∀ world, ∃ after code, (tool arguments).run world = (after, code) ∧
      (code = 0 ∧ (∃ bytes target, world.Wrote after bytes target) ∨ code = 1 ∧ world.Keeps after ∨
        code = panicCode ∧ world.Keeps after ∧ Arguments.wantsHelp arguments = true ∧
          world.outputFault.isSome = true)) ∧
    (Misused (valuedOptions name) (Arguments.takeFlag ["-v", "--verbose"] arguments).2 →
      (tool arguments).Blind ∧ (Arguments.wantsHelp arguments = false →
        ∀ world, ∃ after, (tool arguments).run world = (after, 1) ∧ world.Keeps after)) := by
  have course := course_of_named known
  cases help : Arguments.wantsHelp arguments with
  | true =>
    obtain ⟨lines, same⟩ := course.helps arguments help
    rw [same]
    refine ⟨fun world => ?_, fun _ => ⟨printLines_blind lines, nofun⟩⟩
    obtain ⟨after, code, run, wrote | ⟨failed, keeps, fault⟩⟩ := printLines_ends lines world
    · exact ⟨after, code, run, .inl wrote⟩
    · exact ⟨after, code, run, .inr (.inr ⟨failed, keeps, rfl, fault⟩)⟩
  | false =>
    constructor
    · obtain ⟨work, same, atomic⟩ := course.works arguments help
      rw [same]
      intro world
      obtain ⟨after, code, run, ends⟩ := atomic.exitCode world
      exact ⟨after, code, run, ends.imp_right .inl⟩
    · intro misused
      obtain ⟨lines, same⟩ := course.refuses arguments help misused
      rw [same]
      exact ⟨exitCode_blind (.throw lines), fun _ world => exitCode_error (.throw lines world) (.refl world)⟩

/-- A file that is missing, an option that is unknown and a third file. -/
theorem refused_runs :
    (∃ after, (Print.tool ["missing.fst", "out.txt"]).run {} = (after, 1) ∧ World.Keeps {} after) ∧
    (Sort.tool ["-v", "--reverse", "in.fst"]).Blind ∧
    ∀ world, ∃ after, (Compile.tool ["in.txt", "--isymbols", "in.syms", "out.fst", "more.fst"]).run world =
      (after, 1) ∧ world.Keeps after := by
  have print : toolNamed? "fst-print" = some Print.tool := rfl
  have sort : toolNamed? "fst-topsort" = some Sort.tool := rfl
  have compile : toolNamed? "fst-compile" = some Compile.tool := rfl
  refine ⟨?_, ?_, ?_⟩
  · obtain ⟨after, code, run, ends⟩ := (tools_all_or_nothing print ["missing.fst", "out.txt"]).1 {}
    have failed : ((Print.tool ["missing.fst", "out.txt"]).run {}).2 = 1 := by decide +kernel
    obtain rfl : code = 1 := by rwa [run] at failed
    rcases ends with ⟨done, _⟩ | ⟨_, keeps⟩ | ⟨other, _⟩
    · cases done
    · exact ⟨after, run, keeps⟩
    · cases other
  · exact ((tools_all_or_nothing sort _).2 (.unknown rfl (.head _) (by decide +kernel))).1
  · exact ((tools_all_or_nothing compile _).2 (.many rfl (by decide))).2 (by decide)

/-- Help that cannot be put out, and input that cannot be read. -/
example (reason : String) : ((Sort.tool ["--help"]).run { outputFault := some reason }).2 = panicCode ∧
    ((Sort.tool []).run { inputFault := some reason }).2 = 1 := by
  constructor
  · rfl
  · rfl

end Tool

end Transducer
