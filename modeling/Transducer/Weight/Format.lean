import Transducer.Text.Quoted

/-! The layout of composite weights. Two components are joined by a separator and may stand between
parentheses. Splitting finds the end of the left component again, by its count of fields without
parentheses and by nesting depth with them. -/

namespace Transducer

inductive SplitError where
  | missingParentheses
  | unbalancedParentheses
  | tooFewComponents
deriving DecidableEq, Repr

inductive WeightTextError where
  /-- The text is no weight of the named type. -/
  | invalid (typeName : String) (text : List Char)
  /-- The text of a composite weight has no two components. -/
  | malformed (text : List Char) (reason : SplitError)
deriving DecidableEq, Repr

namespace SplitError

def message : SplitError → String
  | missingParentheses => "missing parentheses"
  | unbalancedParentheses => "unbalanced parentheses"
  | tooFewComponents => "too few components"

end SplitError

namespace WeightTextError

def message : WeightTextError → String
  | invalid typeName text => "invalid " ++ typeName ++ " weight: " ++ String.ofList (Text.quoted text)
  | malformed text reason =>
    "malformed composite weight " ++ String.ofList (Text.quoted text) ++ ": " ++ reason.message

end WeightTextError

structure TextFormat where
  separator : Char := ','
  parentheses : Option (Char × Char) := none
deriving DecidableEq, Repr

namespace TextFormat

def join (format : TextFormat) (left right : List Char) : List Char :=
  match format.parentheses with
  | some (opening, closing) => opening :: left ++ format.separator :: right ++ [closing]
  | none => left ++ format.separator :: right

/-- The text between an opening character in front and a closing one behind. -/
def unwrap? (opening closing : Char) : List Char → Option (List Char)
  | [] => none
  | c :: rest => if c = opening ∧ rest.getLast? = some closing then some rest.dropLast else none

def opens (format : TextFormat) (c : Char) : Bool := format.parentheses.any fun pair => c == pair.1
def closes (format : TextFormat) (c : Char) : Bool := format.parentheses.any fun pair => c == pair.2

/-- Splits at the separator outside all parentheses that ends the last of `fields` fields, when `seen`
of them have ended already. -/
def splitFrom (format : TextFormat) (fields : Nat) (depth seen : Nat) :
    List Char → Except SplitError (List Char × List Char)
  | [] => .error .tooFewComponents
  | c :: rest =>
    let keep (result : Except SplitError (List Char × List Char)) :=
      result.map fun (left, right) => (c :: left, right)
    if format.opens c then keep (splitFrom format fields (depth + 1) seen rest)
    else if format.closes c then
      if depth = 0 then .error .unbalancedParentheses
      else keep (splitFrom format fields (depth - 1) seen rest)
    else if c = format.separator ∧ depth = 0 then
      if seen + 1 = fields then .ok ([], rest)
      else keep (splitFrom format fields depth (seen + 1) rest)
    else keep (splitFrom format fields depth seen rest)

/-- The two components of a text whose left one spans `leftArity` fields. -/
def split (format : TextFormat) (text : List Char) (leftArity : Nat) :
    Except WeightTextError (List Char × List Char) :=
  let components := match format.parentheses with
    | some (opening, closing) =>
      match unwrap? opening closing text with
      | some body => splitFrom format 1 0 0 body
      | none => .error .missingParentheses
    | none => splitFrom format leftArity 0 0 text
  components.mapError (.malformed text)

end TextFormat

end Transducer
