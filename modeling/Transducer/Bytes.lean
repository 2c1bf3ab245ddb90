import Transducer.Naturals

/-! Byte strings, little-endian words and decoders. A decoder takes its bytes from the front of the
input and leaves the rest, so decoders for parts compose into one for the whole. -/

namespace Transducer

abbrev Bytes := List UInt8

inductive DecodeError where
  /-- The input ended before the value did. -/
  | endOfInput
  | invalid (reason : String)
  /-- Whatever else can go wrong where the bytes come from. -/
  | stream (reason : String)
deriving DecidableEq, Repr

inductive EncodeError where
  | tooLong
deriving DecidableEq, Repr

namespace EncodeError

def message : EncodeError → String
  | tooLong => "string weight too long"

end EncodeError

abbrev Decoder := StateT Bytes (Except DecodeError)

namespace Bytes

/-- The first bytes and the rest, if there are enough. -/
def splitAt? : Nat → Bytes → Option (Bytes × Bytes)
  | 0, input => some ([], input)
  | _ + 1, [] => none
  | count + 1, byte :: input => (splitAt? count input).map fun (front, rest) => (byte :: front, rest)

/-- The low `count` bytes of a natural, least significant first. -/
def ofWord : Nat → Nat → Bytes
  | 0, _ => []
  | count + 1, value => UInt8.ofNat value :: ofWord count (value / 256)

/-- The natural whose bytes these are, least significant first. -/
def toWord : Bytes → Nat
  | [] => 0
  | byte :: rest => byte.toNat + 256 * toWord rest

theorem length_ofWord (count value : Nat) : (ofWord count value).length = count := by
  induction count generalizing value with
  | zero => rfl
  | succ count ih => simp [ofWord, ih]

theorem toWord_ofWord {count value : Nat} (bound : value < 256 ^ count) :
    toWord (ofWord count value) = value := by
  induction count generalizing value with
  | zero => simpa [ofWord, toWord] using (Nat.lt_one_iff.mp (by simpa using bound)).symm
  | succ count ih =>
    have smaller : value / 256 < 256 ^ count := by
      rw [Nat.pow_succ, Nat.mul_comm] at bound
      exact Nat.div_lt_of_lt_mul bound
    simp only [ofWord, toWord, ih smaller, UInt8.toNat_ofNat']
    omega

theorem ofWord_toWord (bytes : Bytes) : ofWord bytes.length (toWord bytes) = bytes := by
  induction bytes with
  | nil => rfl
  | cons byte rest ih =>
    have low := byte.toNat_lt
    have quotient : (byte.toNat + 256 * toWord rest) / 256 = toWord rest := by omega
    have remainder : UInt8.ofNat (byte.toNat + 256 * toWord rest) = byte := by
      apply UInt8.toNat_inj.mp
      simp only [UInt8.toNat_ofNat']
      omega
    simp [ofWord, toWord, quotient, remainder, ih]

theorem splitAt?_append (front rest : Bytes) :
    splitAt? front.length (front ++ rest) = some (front, rest) := by
  induction front with
  | nil => rfl
  | cons byte front ih => simp [splitAt?, ih]

end Bytes

namespace Decoder

def take (count : Nat) : Decoder Bytes := fun input =>
  match input.splitAt? count with
  | some (front, rest) => .ok (front, rest)
  | none => .error .endOfInput

/-- A word of `count` bytes, least significant first. -/
def word (count : Nat) : Decoder Nat := do return (← take count).toWord

end Decoder

end Transducer
