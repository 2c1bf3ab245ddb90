import Transducer.Listing.Line

/-! The listing of a graph. The start comes first and the other states follow in order, each with its
arcs before its final weight. Since the first line of a listing names the start, a start without lines
of its own cannot stand before other states. -/

namespace Transducer

inductive PrintError where
  | graph (error : GraphError)
  | symbols (error : SymbolError)
  | unprintableStart (start : StateId)
deriving DecidableEq, Repr

def PrintError.message : PrintError → String
  | graph error => error.message
  | symbols error => error.message
  | unprintableStart start =>
    s!"start state {start} has no arcs and is not final, so it cannot be written as text"

namespace Line

def labelField (table : Option Symbols) (label : Label) : Except PrintError (List Char) :=
  match table with
  | some symbols =>
    match symbols.findSymbol? label with
    | some symbol => .ok symbol.toList
    | none => .error (.symbols (.unnamedLabel label))
  | none => .ok (Numeral.digits label.toNat)

/-- A line of fields with tabs between them. -/
def ofTabbed : List (List Char) → List Char
  | [] => ['\n']
  | [field] => field ++ ['\n']
  | field :: rest => field ++ '\t' :: ofTabbed rest

variable {W : Type} [Weight W]

/-- The weight one is left out. -/
def weightFields (weight : W) : List (List Char) :=
  if Weight.isOne weight then [] else [Weight.display weight]

def ofArc (tables : LabelTables) (source : StateId) (arc : Arc W) : Except PrintError (List Char) := do
  let input ← labelField tables.input arc.input
  let output ← labelField tables.output arc.output
  return ofTabbed
    ([Numeral.digits source, Numeral.digits arc.target, input, output] ++ weightFields arc.weight)

def ofFinal (state : StateId) (weight : W) : List Char :=
  ofTabbed (Numeral.digits state :: weightFields weight)

end Line

namespace Graph

variable {W : Type} [Weight W]

/-- The lines of one state. -/
def listState (graph : Graph W) (tables : LabelTables) (s : StateId) :
    Except PrintError (List Char) := do
  let state ← (graph.state s).mapError .graph
  let arcs ← state.arcs.toList.mapM (Line.ofArc tables s)
  return arcs.flatten ++ (state.final.map (Line.ofFinal s)).getD []

def toListing (graph : Graph W) (tables : LabelTables) : Except PrintError (List Char) :=
  match graph.start with
  | none => .ok []
  | some start => do
    let first ← graph.listState tables start
    let others ← ((List.range graph.size).filter (· ≠ start)).mapM (graph.listState tables)
    let rest := others.flatten
    if first.isEmpty && !rest.isEmpty then .error (.unprintableStart start) else .ok (first ++ rest)

end Graph

end Transducer
