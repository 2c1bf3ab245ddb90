import Transducer.Container.Error
import Transducer.Text.Encoding

/-! The header of a stored graph: 32 bytes in little-endian words. A start of all ones stands for no
start. The name of the weight type follows, with its length in front. -/

namespace Transducer

structure Header where
  start : Nat
  reserved : Nat
  states : Nat
  arcs : Nat
deriving DecidableEq, Repr

/-- A reader of stored bytes takes them from the front and leaves the rest. -/
abbrev Reader := StateT Bytes (Except ReadError)

namespace Reader

def ofDecoder {α : Type} (decoder : Decoder α) : Reader α := fun input =>
  (decoder input).mapError .ofDecode

def word (count : Nat) : Reader Nat := ofDecoder (Decoder.word count)

end Reader

namespace Header

def magic : Nat := 0x7eb2fdd6
def version : Nat := 1
def size : Nat := 32
def noStart : Nat := 0xffffffff

def startState? (header : Header) : Option Nat :=
  if header.start = noStart then none else some header.start

def encode (header : Header) : Bytes :=
  .ofWord 4 magic ++ .ofWord 4 version ++ .ofWord 4 header.start ++ .ofWord 4 header.reserved
    ++ .ofWord 8 header.states ++ .ofWord 8 header.arcs

def read : Reader Header := do
  let input ← get
  if input.length < size then throw (.tooShort size input.length)
  let foundMagic ← Reader.word 4
  let foundVersion ← Reader.word 4
  if foundMagic ≠ magic then throw .invalidMagic
  if foundVersion ≠ version then throw (.unsupportedVersion foundVersion)
  let start ← Reader.word 4
  let reserved ← Reader.word 4
  let states ← Reader.word 8
  let arcs ← Reader.word 8
  return { start, reserved, states, arcs }

def readTypeName : Reader String := do
  let length ← Reader.word 4
  let bytes ← Reader.ofDecoder (Decoder.take length)
  match Text.decode? bytes with
  | some name => return String.ofList name
  | none => throw (.corrupt .weightTypeText)

/-- The name of the weight type that follows the header. -/
def peekTypeName (input : Bytes) : Except ReadError String :=
  (do discard read; readTypeName : Reader String).run' input

end Header

end Transducer
