import Transducer.Proofs.Parsing
import Transducer.Weight.SignedLog

/-! How values are spelled in bytes. A spelling is a row of fields, and almost every field has one spelling,
the one that is written. The exceptions are words that nothing looks at and the sign of a number zero. -/

namespace Transducer

inductive Field where
  | exact (bytes : Bytes)
  /-- A word that may be anything. It is written as zero. -/
  | reserved
  /-- The sign of a signed logarithm of zero, which may be either. It is written as positive. -/
  | zeroSign (width : Width)

namespace Field

def Spelled : Field → Bytes → Prop
  | exact bytes, part => part = bytes
  | reserved, part => part.length = 4
  | zeroSign width, part => ∃ negative, part = Number.encode (SignedLog.signNumber negative : Floating width)

def written : Field → Bytes
  | exact bytes => bytes
  | reserved => Bytes.ofWord 4 0
  | zeroSign width => Number.encode (SignedLog.signNumber false : Floating width)

theorem spelled_written (field : Field) : field.Spelled field.written := by
  cases field with
  | exact bytes => rfl
  | reserved => exact Bytes.length_ofWord 4 0
  | zeroSign width => exact ⟨false, rfl⟩

theorem Spelled.length {field : Field} {part : Bytes} (spelled : field.Spelled part) :
    part.length = field.written.length := by
  cases field with
  | exact bytes => exact congrArg List.length spelled
  | reserved => exact spelled
  | zeroSign width =>
    obtain ⟨negative, rfl⟩ := spelled
    simp [written, Number.encode, Bytes.length_ofWord]

end Field

/-- The input begins with a spelling of the fields, and the rest follows. -/
def Spells : List Field → Bytes → Bytes → Prop
  | [], input, rest => input = rest
  | field :: fields, input, rest => ∃ part middle, field.Spelled part ∧ input = part ++ middle ∧ Spells fields middle rest

def written (fields : List Field) : Bytes := fields.flatMap Field.written

variable {fields more : List Field} {input rest bytes : Bytes}

theorem written_append (fields more : List Field) : written (fields ++ more) = written fields ++ written more :=
  List.flatMap_append

theorem spells_append : Spells (fields ++ more) input rest ↔
    ∃ middle, Spells fields input middle ∧ Spells more middle rest := by
  induction fields generalizing input with
  | nil => simp [Spells]
  | cons field fields ih =>
    simp only [List.cons_append, Spells, ih]
    constructor
    · intro given
      obtain ⟨part, middle, spelled, rfl, last, before, after⟩ := given
      exact ⟨last, ⟨part, middle, spelled, rfl, before⟩, after⟩
    · intro given
      obtain ⟨last, ⟨part, middle, spelled, rfl, before⟩, after⟩ := given
      exact ⟨part, middle, spelled, rfl, last, before, after⟩

theorem spells_exact : Spells (.exact bytes :: fields) input rest ↔
    ∃ middle, input = bytes ++ middle ∧ Spells fields middle rest := by
  simp [Spells, Field.Spelled]

theorem spells_singleton : Spells [.exact bytes] input rest ↔ input = bytes ++ rest := by
  simp [Spells, Field.Spelled]

theorem spells_written (fields : List Field) (rest : Bytes) : Spells fields (written fields ++ rest) rest := by
  induction fields with
  | nil => rfl
  | cons field fields ih => exact ⟨_, _, field.spelled_written, by simp [written], ih⟩

theorem Spells.length (spells : Spells fields input rest) :
    input.length = (written fields).length + rest.length := by
  induction fields generalizing input with
  | nil => simp [written, show input = rest from spells]
  | cons field fields ih =>
    obtain ⟨part, middle, spelled, rfl, after⟩ := spells
    simp [written, spelled.length, ih after, Nat.add_assoc]

end Transducer
