import Transducer.Container.TypedGraph
import Transducer.Tool.Basic

/-! The tool that turns stored bytes into a listing. -/

namespace Transducer.Tool.Print

def usage : String :=
  "Usage: fst-print [--isymbols=FILE] [--osymbols=FILE] [in.fst|-] [out.txt]"

def help : List String :=
  ["fst-print: Print a transducer as text.", "", usage, "", "Options:",
   "  --isymbols=FILE    Print input labels as symbols",
   "  --osymbols=FILE    Print output labels as symbols",
   "  -v, --verbose      Log progress to stderr",
   "  -h, --help         Print this help"]

structure Options where
  input : Option String
  output : Option String
  files : List String

def Options.ofArguments (arguments : List String) : Except UsageError Options := do
  let (input, arguments) ← Arguments.takeOption "--isymbols" arguments
  let (output, arguments) ← Arguments.takeOption "--osymbols" arguments
  return { input, output, files := ← Arguments.files arguments }

def print (options : Options) (verbose : Bool) : Tool Unit := do
  let (source, target) ← sourceAndTarget usage options.files
  let input ← loadSymbols options.input
  let output ← loadSymbols options.output
  let bytes ← source.read
  let typed ← orFatal (fun error => source.name ++ ": " ++ error.message) (TypedGraph.decode bytes)
  if verbose then log s!"read {typed.graph.size} states and {typed.graph.totalArcs} arcs"
  let text ← orFatal PrintError.message (typed.toListing { input, output })
  writeTo target (Text.encode text)

def tool (arguments : List String) : Program Nat :=
  if Arguments.wantsHelp arguments then printLines help
  else
    let (verbose, arguments) := Arguments.takeFlag ["-v", "--verbose"] arguments
    exitCode do print (← orUsage usage (Options.ofArguments arguments)) verbose

end Transducer.Tool.Print
