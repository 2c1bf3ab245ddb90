import Transducer.Bytes

/-! Text as bytes in UTF-8. -/

namespace Transducer.Text

def encode (text : List Char) : Bytes := (String.ofList text).toUTF8.data.toList

/-- The text that these bytes encode, if they are well formed. -/
def decode? (bytes : Bytes) : Option (List Char) :=
  (String.fromUTF8? ⟨bytes.toArray⟩).map String.toList

end Transducer.Text
