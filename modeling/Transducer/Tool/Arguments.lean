/-! Command-line arguments. Flags and options are taken out of the list one after the other, and what is
left must be files. -/

namespace Transducer

inductive UsageError where
  | missingValue (option : String)
  | unknownOption (argument : String)
deriving DecidableEq, Repr

def UsageError.message : UsageError → String
  | missingValue option => option ++ " requires a value"
  | unknownOption argument => "unknown option " ++ argument

namespace Arguments

def wantsHelp (arguments : List String) : Bool :=
  arguments.any fun argument => argument == "--help" || argument == "-h"

/-- Whether any of the names was there, and the arguments without them. -/
def takeFlag (names arguments : List String) : Bool × List String :=
  (arguments.any names.contains, arguments.filter fun argument => !names.contains argument)

/-- The value in an argument of the form `name=value`. -/
def attachedValue? (name argument : String) : Option String :=
  ((name.toList ++ ['=']).isPrefixOf? argument.toList).map String.ofList

/-- Takes an option in either form, whose last value counts, when `value` is its value so far. -/
def takeOptionFrom (name : String) (value : Option String) :
    List String → Except UsageError (Option String × List String)
  | [] => .ok (value, [])
  | argument :: rest =>
    match attachedValue? name argument with
    | some attached => takeOptionFrom name (some attached) rest
    | none =>
      if argument = name then
        match rest with
        | [] => .error (.missingValue name)
        | following :: rest => takeOptionFrom name (some following) rest
      else do
        let (value, kept) ← takeOptionFrom name value rest
        return (value, argument :: kept)

def takeOption (name : String) (arguments : List String) :
    Except UsageError (Option String × List String) :=
  takeOptionFrom name none arguments

/-- A lone dash is a file, and stands for standard input. -/
def isOption (argument : String) : Bool := argument.toList.head? == some '-' && argument != "-"

/-- All arguments, if none is an option. -/
def files (arguments : List String) : Except UsageError (List String) :=
  match arguments.find? isOption with
  | some argument => .error (.unknownOption argument)
  | none => .ok arguments

end Arguments

end Transducer
