import Transducer.Tool.Compile
import Transducer.Tool.Print
import Transducer.Tool.Sort

/-! The command line. The first argument names the tool, and the others are for it. -/

namespace Transducer

def toolNamed? : String → Option (List String → Program Nat)
  | "fst-compile" => some Tool.Compile.tool
  | "fst-print" => some Tool.Print.tool
  | "fst-topsort" => some Tool.Sort.tool
  | _ => none

/-- The reason for a failure, in the words that a world in memory uses too. -/
def failureReason : IO.Error → String
  | .noFileOrDirectory .. => World.missingFile
  | error => toString error

def attempt {α : Type} (action : IO α) : IO (Except String α) := do
  match ← action.toBaseIO with
  | .ok result => return .ok result
  | .error error => return .error (failureReason error)

/-- Runs a program in the real world. -/
def Program.perform {α : Type} : Program α → IO α
  | done result => return result
  | readInput next => do
    let contents ← attempt do (← IO.getStdin).readBinToEnd
    (next (contents.map fun bytes => bytes.data.toList)).perform
  | readFile path next => do
    let contents ← attempt (IO.FS.readBinFile path)
    (next (contents.map fun bytes => bytes.data.toList)).perform
  | writeFile path bytes next => do
    (next (← attempt (IO.FS.writeBinFile path ⟨bytes.toArray⟩))).perform
  | writeOutput bytes next => do
    let outcome ← attempt do
      let out ← IO.getStdout
      out.write ⟨bytes.toArray⟩
      out.flush
    (next outcome).perform
  | report line next => do
    IO.eprintln line
    next.perform
  | log line next => do
    IO.eprintln line
    next.perform

end Transducer

open Transducer in
def main (arguments : List String) : IO UInt32 := do
  match arguments with
  | [] => IO.eprintln "Usage: transducer fst-compile|fst-print|fst-topsort [arguments]"; return 1
  | name :: rest =>
    match toolNamed? name with
    | none => IO.eprintln ("unknown tool " ++ name); return 1
    | some tool => return UInt32.ofNat (← (tool rest).perform)
