import Transducer.Graph.Basic
import Transducer.Symbols

/-! Lines of a listing. A line of one or two fields makes a state final, and one of four or five fields
is an arc. The last field of the longer forms is a weight, and the shorter forms stand for the weight
one. Labels are symbols where there is a table and numerals where there is none. -/

namespace Transducer

/-- The tables for the labels of arcs. -/
structure LabelTables where
  input : Option Symbols := none
  output : Option Symbols := none

inductive LineError where
  | invalidState (field : List Char)
  | invalidLabel (field : List Char)
  | unknownSymbol (field : List Char)
  | invalidWeight (error : WeightTextError)
  | fieldCount (count : Nat)
deriving DecidableEq, Repr

def LineError.message : LineError → String
  | invalidState field => "invalid state id " ++ String.ofList (Text.quoted field)
  | invalidLabel field => "invalid label " ++ String.ofList (Text.quoted field)
  | unknownSymbol field => "symbol " ++ String.ofList (Text.quoted field) ++ " not in symbol table"
  | invalidWeight error => error.message
  | fieldCount count => s!"expected 1, 2, 4 or 5 fields, found {count}"

/-- What a line says. States have names of its own, which are numbers too. -/
inductive Line (W : Type) where
  | blank
  | final (state : StateId) (weight : W)
  | arc (source target : StateId) (input output : Label) (weight : W)
deriving DecidableEq, Repr

namespace Line

def readState (field : List Char) : Except LineError StateId :=
  match Numeral.readWord? field with
  | some state => .ok state.toNat
  | none => .error (.invalidState field)

def readLabel (table : Option Symbols) (field : List Char) : Except LineError Label :=
  match table with
  | some symbols =>
    match symbols.findLabel? (String.ofList field) with
    | some label => .ok label
    | none => .error (.unknownSymbol field)
  | none =>
    match Numeral.readWord? field with
    | some label => .ok label
    | none => .error (.invalidLabel field)

variable {W : Type} [Weight W]

def readWeight (field : List Char) : Except LineError W :=
  (Weight.parse {} field).mapError .invalidWeight

def readFinal (state : List Char) (weight : Except LineError W) : Except LineError (Line W) := do
  let state ← readState state
  return .final state (← weight)

def readArc (tables : LabelTables) (source target input output : List Char)
    (weight : Except LineError W) : Except LineError (Line W) := do
  let source ← readState source
  let target ← readState target
  let input ← readLabel tables.input input
  let output ← readLabel tables.output output
  return .arc source target input output (← weight)

def ofFields (tables : LabelTables) : List (List Char) → Except LineError (Line W)
  | [] => .ok .blank
  | [state] => readFinal state (.ok Weight.one)
  | [state, weight] => readFinal state (readWeight weight)
  | [source, target, input, output] => readArc tables source target input output (.ok Weight.one)
  | [source, target, input, output, weight] =>
    readArc tables source target input output (readWeight weight)
  | fields => .error (.fieldCount fields.length)

end Line

end Transducer
