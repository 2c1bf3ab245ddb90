import Transducer.Container.TypedGraph
import Transducer.Tool.Basic

/-! The tool that turns a listing into stored bytes. -/

namespace Transducer.Tool.Compile

def usage : String :=
  "Usage: fst-compile [--weight-type=T] [--isymbols=FILE] [--osymbols=FILE] [in.txt|-] [out.fst]"

def help : List String :=
  ["fst-compile: Compile an AT&T text transducer.", "", usage, "", "Options:",
   "  --weight-type=T    Weight type (default: tropical)",
   "  --isymbols=FILE    Input label symbol table",
   "  --osymbols=FILE    Output label symbol table",
   "  -v, --verbose      Log progress to stderr",
   "  -h, --help         Print this help", "",
   "Weight types: " ++ ", ".intercalate (BuiltIn.all.map BuiltIn.name)]

structure Options where
  weightType : Option String
  input : Option String
  output : Option String
  files : List String

def Options.ofArguments (arguments : List String) : Except UsageError Options := do
  let (weightType, arguments) ← Arguments.takeOption "--weight-type" arguments
  let (input, arguments) ← Arguments.takeOption "--isymbols" arguments
  let (output, arguments) ← Arguments.takeOption "--osymbols" arguments
  return { weightType, input, output, files := ← Arguments.files arguments }

def compile (options : Options) (verbose : Bool) : Tool Unit := do
  let (source, target) ← sourceAndTarget usage options.files
  let input ← loadSymbols options.input
  let output ← loadSymbols options.output
  let bytes ← source.read
  match Text.decode? bytes with
  | none => fatal "input is not valid UTF-8"
  | some text =>
    let typed ← orFatal (fun error => source.name ++ ": " ++ error.message)
      (TypedGraph.ofListing (options.weightType.getD "tropical") { input, output } text)
    if verbose then log s!"compiled {typed.graph.size} states and {typed.graph.totalArcs} arcs"
    writeTo target (← orFatal WriteError.message typed.encode)

def tool (arguments : List String) : Program Nat :=
  if Arguments.wantsHelp arguments then printLines help
  else
    let (verbose, arguments) := Arguments.takeFlag ["-v", "--verbose"] arguments
    exitCode do compile (← orUsage usage (Options.ofArguments arguments)) verbose

end Transducer.Tool.Compile
