import Transducer.Container.TypedGraph
import Transducer.Tool.Basic

/-! The tool that sorts a stored graph. One with a cycle is written as it is, with a warning. -/

namespace Transducer.Tool.Sort

def usage : String := "Usage: fst-topsort [-v|--verbose] [in.fst|-] [out.fst]"

def help : List String :=
  ["fst-topsort: Topologically sort a transducer.", "", usage, "",
   "Reads standard input when in.fst is omitted or '-', and writes",
   "standard output when out.fst is omitted. A cyclic input is", "written unchanged.", "", "Options:",
   "  -v, --verbose   Log algorithm progress to stderr",
   "  -h, --help      Print this help"]

def cyclicWarning : String := "fst-topsort: Input FST is cyclic"

def sort (files : List String) (verbose : Bool) : Tool Unit := do
  let (source, target) ← sourceAndTarget usage files
  let bytes ← source.read
  let typed ← orFatal (fun error => source.name ++ ": " ++ error.message) (TypedGraph.decode bytes)
  if verbose then log s!"read {typed.graph.size} states and {typed.graph.totalArcs} arcs"
  match ← orFatal GraphError.message typed.sorted? with
  | some sorted => writeTo target (← orFatal WriteError.message sorted.encode)
  | none =>
    log cyclicWarning
    writeTo target (← orFatal WriteError.message typed.encode)

def tool (arguments : List String) : Program Nat :=
  if Arguments.wantsHelp arguments then printLines help
  else
    let (verbose, arguments) := Arguments.takeFlag ["-v", "--verbose"] arguments
    exitCode do sort (← orUsage usage (Arguments.files arguments)) verbose

end Transducer.Tool.Sort
