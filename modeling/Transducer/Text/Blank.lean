/-! White space as the Unicode property has it, lines and blank-separated fields. -/

namespace Transducer.Text

/-- The White_Space property, 25 characters in closed ranges. -/
def blankRanges : List (Nat × Nat) :=
  [(0x09, 0x0d), (0x20, 0x20), (0x85, 0x85), (0xa0, 0xa0), (0x1680, 0x1680), (0x2000, 0x200a),
   (0x2028, 0x2029), (0x202f, 0x202f), (0x205f, 0x205f), (0x3000, 0x3000)]

def isBlank (c : Char) : Bool := blankRanges.any fun (first, last) => first ≤ c.toNat && c.toNat ≤ last

/-- The fields after one that has been read backwards as far as `current`. -/
def fieldsFrom (current : List Char) : List Char → List (List Char)
  | [] => if current = [] then [] else [current.reverse]
  | c :: rest =>
    if isBlank c then
      if current = [] then fieldsFrom [] rest else current.reverse :: fieldsFrom [] rest
    else fieldsFrom (c :: current) rest

/-- The runs of characters between blanks. -/
def fields (text : List Char) : List (List Char) := fieldsFrom [] text

def dropReturn : List Char → List Char
  | '\r' :: rest => rest
  | text => text

/-- The lines after one that has been read backwards as far as `current`. -/
def linesFrom (current : List Char) : List Char → List (List Char)
  | [] => if current = [] then [] else [current.reverse]
  | '\n' :: rest => (dropReturn current).reverse :: linesFrom [] rest
  | c :: rest => linesFrom (c :: current) rest

/-- Lines end in a line feed or in a carriage return and a line feed. The last may have no end. -/
def lines (text : List Char) : List (List Char) := linesFrom [] text

end Transducer.Text
