import Transducer.Text.Numeral
import Transducer.Text.Unprintable

/-! Text between double quotes as error messages show it. -/

namespace Transducer.Text

/-- The code point in hexadecimal between braces. -/
def escapeCode (c : Char) : List Char := ['\\', 'u', '\x7b'] ++ Numeral.hex c.toNat ++ ['\x7d']

def escape (c : Char) : List Char :=
  match c with
  | '\x00' => ['\\', '0']
  | '\t' => ['\\', 't']
  | '\r' => ['\\', 'r']
  | '\n' => ['\\', 'n']
  | '"' => ['\\', '"']
  | '\\' => ['\\', '\\']
  | _ => if isUnprintable c then escapeCode c else [c]

def quoted (text : List Char) : List Char := '"' :: text.flatMap escape ++ ['"']

end Transducer.Text
