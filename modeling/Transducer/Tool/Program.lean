import Transducer.Bytes

/-! Programs that read and write as plain values. A program is its next action with what follows each
answer, so what it does can be run in a world of files in memory as well as in the real one. -/

namespace Transducer

inductive Program (α : Type) where
  | done (result : α)
  | readInput (next : Except String Bytes → Program α)
  | readFile (path : String) (next : Except String Bytes → Program α)
  | writeFile (path : String) (bytes : Bytes) (next : Except String Unit → Program α)
  | writeOutput (bytes : Bytes) (next : Except String Unit → Program α)
  /-- Tells the user of a failure. -/
  | report (line : String) (next : Program α)
  /-- Logs what is going on. -/
  | log (line : String) (next : Program α)

namespace Program

variable {α β : Type}

def bind (program : Program α) (next : α → Program β) : Program β :=
  match program with
  | done result => next result
  | readInput follow => readInput fun contents => (follow contents).bind next
  | readFile path follow => readFile path fun contents => (follow contents).bind next
  | writeFile path bytes follow => writeFile path bytes fun outcome => (follow outcome).bind next
  | writeOutput bytes follow => writeOutput bytes fun outcome => (follow outcome).bind next
  | report line follow => report line (follow.bind next)
  | log line follow => log line (follow.bind next)

instance : Monad Program where
  pure := done
  bind := bind

end Program

/-- Files and streams in memory. -/
structure World where
  input : Bytes := []
  /-- Why the input cannot be read, if it cannot. -/
  inputFault : Option String := none
  file : String → Option Bytes := fun _ => none
  /-- Whether a file may be written, new or not. -/
  mayWrite : String → Bool := fun _ => true
  output : Bytes := []
  /-- Why nothing can be put out, if it cannot. -/
  outputFault : Option String := none
  reports : List String := []
  logged : List String := []

namespace World

def missingFile : String := "No such file or directory (os error 2)"

def read (world : World) (path : String) : Except String Bytes :=
  match world.file path with
  | some bytes => .ok bytes
  | none => .error missingFile

/-- Writes a whole file, or nothing at all. -/
def write (world : World) (path : String) (bytes : Bytes) : World × Except String Unit :=
  if world.mayWrite path then
    ({ world with file := fun other => if other = path then some bytes else world.file other }, .ok ())
  else (world, .error missingFile)

/-- Takes the whole input, which is then empty. -/
def takeInput (world : World) : World × Except String Bytes :=
  match world.inputFault with
  | none => ({ world with input := [] }, .ok world.input)
  | some reason => (world, .error reason)

/-- Adds to the output, or does nothing at all. -/
def putOut (world : World) (bytes : Bytes) : World × Except String Unit :=
  match world.outputFault with
  | none => ({ world with output := world.output ++ bytes }, .ok ())
  | some reason => (world, .error reason)

end World

/-- Runs a program in a world in memory. -/
def Program.run {α : Type} (world : World) : Program α → World × α
  | done result => (world, result)
  | readInput next =>
    let (world, contents) := world.takeInput
    (next contents).run world
  | readFile path next => (next (world.read path)).run world
  | writeFile path bytes next =>
    let (world, outcome) := world.write path bytes
    (next outcome).run world
  | writeOutput bytes next =>
    let (world, outcome) := world.putOut bytes
    (next outcome).run world
  | report line next => next.run { world with reports := world.reports ++ [line] }
  | log line next => next.run { world with logged := world.logged ++ [line] }

end Transducer
