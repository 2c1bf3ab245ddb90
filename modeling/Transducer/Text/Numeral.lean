/-! Decimal numerals, written without leading zeros and read with any number of them. -/

namespace Transducer.Numeral

def digit (value : Nat) : Char := Char.ofNat ('0'.toNat + value)

def digitValue? (c : Char) : Option Nat :=
  if '0' ≤ c ∧ c ≤ '9' then some (c.toNat - '0'.toNat) else none

/-- The decimal digits of a natural in front of the given characters. -/
def digitsBefore (number : Nat) (rest : List Char) : List Char :=
  if number < 10 then digit number :: rest
  else digitsBefore (number / 10) (digit (number % 10) :: rest)
termination_by number
decreasing_by omega

def digits (number : Nat) : List Char := digitsBefore number []

/-- The value of a run of digits after those that make up `start`. -/
def valueAfter (start : Nat) : List Char → Option Nat
  | [] => some start
  | c :: rest => do valueAfter (10 * start + (← digitValue? c)) rest

/-- The value of one or more digits and nothing else. -/
def value? (text : List Char) : Option Nat := if text = [] then none else valueAfter 0 text

/-- The digits in front and what follows them. -/
def splitDigits (text : List Char) : List Char × List Char :=
  (text.takeWhile fun c => (digitValue? c).isSome, text.dropWhile fun c => (digitValue? c).isSome)

/-- An optional plus sign and digits, with a value of at most 32 bits. -/
def readWord? (text : List Char) : Option UInt32 :=
  let unsigned := match text with
    | '+' :: rest => rest
    | _ => text
  match value? unsigned with
  | some value => if value < UInt32.size then some (UInt32.ofNat value) else none
  | none => none

def hexDigit (value : Nat) : Char :=
  if value < 10 then Char.ofNat ('0'.toNat + value) else Char.ofNat ('a'.toNat + (value - 10))

/-- The lowercase hexadecimal digits of a natural in front of the given characters. -/
def hexBefore (number : Nat) (rest : List Char) : List Char :=
  if number < 16 then hexDigit number :: rest
  else hexBefore (number / 16) (hexDigit (number % 16) :: rest)
termination_by number
decreasing_by omega

def hex (number : Nat) : List Char := hexBefore number []

/-- The two hexadecimal digits of a byte. -/
def hexByte (byte : UInt8) : List Char := [hexDigit (byte.toNat / 16), hexDigit (byte.toNat % 16)]

end Transducer.Numeral
