import Std.Data.TreeMap
import Transducer.Text.Blank
import Transducer.Text.Numeral
import Transducer.Text.Quoted
import Transducer.Weight.LabelString

/-! Symbol tables. A table names labels by symbols and finds labels by symbols. Labels are given in
order, after the greatest that is in use. As text a table has a line for each label, with its symbol in
front. -/

namespace Transducer

inductive SymbolError where
  | symbolTaken (symbol : String) (label : Label)
  | labelTaken (label : Label) (symbol : String)
  /-- A line has no second field, or one that is no label. -/
  | missingLabel (line : Nat)
  | extraFields (line : Nat)
  | unnamedLabel (label : Label)
deriving DecidableEq, Repr

namespace SymbolError

def reason : SymbolError → String
  | symbolTaken symbol label =>
    "symbol " ++ String.ofList (Text.quoted symbol.toList) ++ s!" already has label {label}"
  | labelTaken label symbol =>
    s!"label {label} already names " ++ String.ofList (Text.quoted symbol.toList)
  | missingLabel line => s!"line {line}: expected `symbol label`"
  | extraFields line => s!"line {line}: too many fields"
  | unnamedLabel label => s!"label {label} has no symbol"

def message (error : SymbolError) : String := "invalid symbol table: " ++ error.reason

end SymbolError

structure Symbols where
  symbolOf : Std.TreeMap Label String := {}
  labelOf : Std.TreeMap String Label := {}
  /-- The label that the next new symbol gets. -/
  available : Label := 0

namespace Symbols

def empty : Symbols := {}

def findLabel? (symbols : Symbols) (symbol : String) : Option Label := symbols.labelOf[symbol]?
def findSymbol? (symbols : Symbols) (label : Label) : Option String := symbols.symbolOf[label]?

def size (symbols : Symbols) : Nat := symbols.symbolOf.size

/-- The label after this one, or the same if it is the last. -/
def following (label : Label) : Label := if label = 0xffffffff then label else label + 1

def bind (symbols : Symbols) (symbol : String) (label : Label) : Symbols where
  symbolOf := symbols.symbolOf.insert label symbol
  labelOf := symbols.labelOf.insert symbol label
  available := if symbols.available ≤ label then following label else symbols.available

/-- The label of a symbol, a new one if it has none. -/
def add (symbols : Symbols) (symbol : String) : Symbols × Label :=
  match symbols.findLabel? symbol with
  | some label => (symbols, label)
  | none => (symbols.bind symbol symbols.available, symbols.available)

/-- Binds a symbol to a label unless either is bound otherwise. -/
def addWith (symbols : Symbols) (symbol : String) (label : Label) : Except SymbolError Symbols :=
  match symbols.findLabel? symbol, symbols.findSymbol? label with
  | some other, _ => if other = label then .ok symbols else .error (.symbolTaken symbol other)
  | none, some other => .error (.labelTaken label other)
  | none, none => .ok (symbols.bind symbol label)

/-- The labels with their symbols, in increasing order. -/
def entries (symbols : Symbols) : List (Label × String) := symbols.symbolOf.toList

def equal (first second : Symbols) : Bool :=
  first.entries == second.entries && first.labelOf.toList == second.labelOf.toList
    && first.available == second.available

def addLine (symbols : Symbols) (number : Nat) (fields : List (List Char)) : Except SymbolError Symbols :=
  match fields with
  | [] => .ok symbols
  | [_] => .error (.missingLabel number)
  | symbol :: second :: rest =>
    match Numeral.readWord? second with
    | none => .error (.missingLabel number)
    | some label => if rest = [] then symbols.addWith (String.ofList symbol) label else .error (.extraFields number)

/-- Adds lines whose first has the given number. -/
def addLines (symbols : Symbols) (number : Nat) : List (List Char) → Except SymbolError Symbols
  | [] => .ok symbols
  | line :: rest => do addLines (← symbols.addLine number (Text.fields line)) (number + 1) rest

def ofText (text : List Char) : Except SymbolError Symbols := empty.addLines 1 (Text.lines text)

def toText (symbols : Symbols) : List Char :=
  symbols.entries.flatMap fun (label, symbol) =>
    symbol.toList ++ '\t' :: Numeral.digits label.toNat ++ ['\n']

end Symbols

end Transducer
