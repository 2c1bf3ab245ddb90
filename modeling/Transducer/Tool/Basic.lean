import Transducer.Symbols
import Transducer.Text.Encoding
import Transducer.Tool.Arguments
import Transducer.Tool.Program

/-! What the tools share. A tool reads all that it needs, works, and writes once at the end, so one that
fails leaves nothing behind. -/

namespace Transducer

/-- A program that may fail with lines for the user. -/
abbrev Tool := ExceptT (List String) Program

namespace Tool

/-- The exit code of a tool, after its failure is reported. -/
def exitCode (tool : Tool Unit) : Program Nat := do
  match ← tool.run with
  | .ok () => return 0
  | .error lines => lines.foldr Program.report (.done 1)

def fatal {α : Type} (message : String) : Tool α := throw ["error: " ++ message]

def orFatal {ε α : Type} (message : ε → String) : Except ε α → Tool α
  | .ok result => return result
  | .error error => fatal (message error)

def orUsage {α : Type} (usage : String) : Except UsageError α → Tool α
  | .ok result => return result
  | .error error => throw ["error: " ++ error.message, usage]

/-- The exit code of a program that is given up. -/
def panicCode : Nat := 101

/-- Prints lines for the user, each with its end. A program that cannot do that is given up. -/
def printLines (lines : List String) : Program Nat :=
  .writeOutput (Text.encode (lines.flatMap fun line => line.toList ++ ['\n'])) fun outcome =>
    match outcome with
    | .ok () => .done 0
    | .error reason => .report s!"failed printing to stdout: {reason}" (.done panicCode)

def log (line : String) : Tool Unit := ExceptT.lift (.log line (.done ()))

def readFile (path : String) : Tool Bytes := do
  orFatal (fun reason => s!"failed to read {path}: {reason}") (← ExceptT.lift (.readFile path .done))

def readInput : Tool Bytes := do
  orFatal (fun reason => s!"failed to read standard input: {reason}") (← ExceptT.lift (.readInput .done))

/-- The input of a tool, and what messages call it. -/
structure Source where
  path : Option String

namespace Source

def name (source : Source) : String := source.path.getD "standard input"

def read (source : Source) : Tool Bytes :=
  match source.path with
  | none => readInput
  | some path => if path = "-" then readInput else readFile path

end Source

/-- Writes to a file, or to standard output if there is no path. -/
def writeTo (path : Option String) (bytes : Bytes) : Tool Unit :=
  match path with
  | none => do
    orFatal (fun reason => s!"failed to write standard output: {reason}")
      (← ExceptT.lift (.writeOutput bytes .done))
  | some path => do
    orFatal (fun reason => s!"failed to write {path}: {reason}")
      (← ExceptT.lift (.writeFile path bytes .done))

def loadSymbols : Option String → Tool (Option Symbols)
  | none => return none
  | some path => do
    let bytes ← readFile path
    match Text.decode? bytes with
    | none => fatal s!"failed to read {path}: stream did not contain valid UTF-8"
    | some text =>
      return some (← orFatal (fun error => s!"{path}: " ++ error.message) (Symbols.ofText text))

/-- The two files of a tool, either of which may be left out. -/
def sourceAndTarget (usage : String) (files : List String) : Tool (Source × Option String) :=
  match files with
  | [] => return (⟨none⟩, none)
  | [input] => return (⟨some input⟩, none)
  | [input, output] => return (⟨some input⟩, some output)
  | _ => throw [usage]

end Tool

end Transducer
