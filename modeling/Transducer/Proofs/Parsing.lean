import Transducer.Bytes
import Transducer.Container.Header

/-! When a parser succeeds, step by step. A parser that succeeds has taken some bytes from the front of its
input, and words and blocks of bytes are taken exactly as they are written. -/

namespace Transducer

/-- Decoders and readers differ only in their errors. -/
abbrev Parser (ε : Type) := StateT Bytes (Except ε)

namespace Parser

variable {ε α β : Type} {input rest : Bytes} {value : α} {error : ε}

theorem bind_ok {first : Parser ε α} {next : α → Parser ε β} {value : β} :
    (first >>= next) input = .ok (value, rest) ↔
      ∃ found middle, first input = .ok (found, middle) ∧ next found middle = .ok (value, rest) := by
  simp only [bind, StateT.bind, Except.bind]
  cases first input with
  | error error => simp
  | ok taken =>
    obtain ⟨found, middle⟩ := taken
    simp [and_assoc]

/-- Only what the first parser can find matters to the second. -/
theorem bind_congr {first : Parser ε α} {one other : α → Parser ε β}
    (same : ∀ input found rest, first input = .ok (found, rest) → one found = other found) :
    first >>= one = first >>= other := by
  funext input
  simp only [bind, StateT.bind, Except.bind]
  cases taken : first input with
  | error error => rfl
  | ok found => exact congrFun (same input found.1 found.2 taken) found.2

theorem pure_ok {found : α} :
    (pure found : Parser ε α) input = .ok (value, rest) ↔ found = value ∧ input = rest := by
  show Except.ok (found, input) = _ ↔ _
  simp

theorem map_ok {f : α → β} {first : Parser ε α} {value : β} :
    (f <$> first) input = .ok (value, rest) ↔ ∃ found, first input = .ok (found, rest) ∧ f found = value := by
  simp only [map_eq_pure_bind, bind_ok, pure_ok]
  constructor
  · intro given
    obtain ⟨found, middle, taken, same, rfl⟩ := given
    exact ⟨found, taken, same⟩
  · intro given
    obtain ⟨found, taken, same⟩ := given
    exact ⟨found, rest, taken, same, rfl⟩

theorem discard_ok {first : Parser ε α} {done : Unit} :
    discard first input = .ok (done, rest) ↔ ∃ found, first input = .ok (found, rest) := by
  show ((fun _ => ()) <$> first) input = .ok (done, rest) ↔ _
  simp [map_ok]

theorem throw_ok : ¬ (throw error : Parser ε α) input = .ok (value, rest) := nofun

theorem run'_ok {first : Parser ε α} : first.run' input = .ok value ↔ ∃ rest, first input = .ok (value, rest) := by
  show Prod.fst <$> first input = _ ↔ _
  cases first input with
  | error error => simp [Functor.map, Except.map]
  | ok taken => simp [Functor.map, Except.map, Prod.ext_iff]

theorem run'_error {first : Parser ε α} : first.run' input = .error error ↔ first input = .error error := by
  show Prod.fst <$> first input = _ ↔ _
  cases first input with
  | error error => simp [Functor.map, Except.map]
  | ok taken => simp [Functor.map, Except.map]

theorem get_ok {found : Bytes} : (get : Parser ε Bytes) input = .ok (found, rest) ↔ input = found ∧ input = rest := by
  show Except.ok (input, input) = _ ↔ _
  simp

theorem ite_ok {condition : Prop} [Decidable condition] {first second : Parser ε α} :
    (if condition then first else second) input = .ok (value, rest) ↔
      condition ∧ first input = .ok (value, rest) ∨ ¬ condition ∧ second input = .ok (value, rest) := by
  split <;> simp [*]

theorem check_ok {condition : Prop} [Decidable condition] {next : β → Parser ε α} {second : Parser ε α} :
    (if condition then throw error >>= next else second) input = .ok (value, rest) ↔
      ¬ condition ∧ second input = .ok (value, rest) := by
  simp [ite_ok, bind_ok, throw_ok]

end Parser

theorem except_bind_ok {ε α β : Type} {first : Except ε α} {next : α → Except ε β} {value : β} :
    first >>= next = .ok value ↔ ∃ found, first = .ok found ∧ next found = .ok value := by
  cases first <;> simp [bind, Except.bind]

theorem mapError_ok {ε ε' α : Type} {result : Except ε α} {change : ε → ε'} {value : α} :
    result.mapError change = .ok value ↔ result = .ok value := by
  cases result with
  | ok found =>
    show (.ok found : Except ε' α) = .ok value ↔ (.ok found : Except ε α) = .ok value
    simp
  | error reason =>
    show (.error (change reason) : Except ε' α) = .ok value ↔ (.error reason : Except ε α) = .ok value
    simp

namespace Bytes

theorem splitAt?_iff {count : Nat} {input front rest : Bytes} :
    splitAt? count input = some (front, rest) ↔ front.length = count ∧ input = front ++ rest := by
  constructor
  · intro found
    induction count generalizing input front with
    | zero =>
      cases found
      exact ⟨rfl, rfl⟩
    | succ count ih =>
      cases input with
      | nil => cases found
      | cons byte input =>
        simp only [splitAt?, Option.map_eq_some_iff, Prod.exists, Prod.mk.injEq] at found
        obtain ⟨tail, _, split, rfl, rfl⟩ := found
        obtain ⟨sized, rfl⟩ := ih split
        exact ⟨congrArg Nat.succ sized, rfl⟩
  · intro given
    obtain ⟨rfl, rfl⟩ := given
    exact splitAt?_append front rest

theorem toWord_lt (bytes : Bytes) : bytes.toWord < 256 ^ bytes.length := by
  induction bytes with
  | nil => exact Nat.one_pos
  | cons byte bytes ih =>
    have low := byte.toNat_lt
    rw [toWord, List.length_cons, Nat.pow_succ]
    omega

end Bytes

namespace Decoder

variable {input rest : Bytes}

theorem take_ok {count : Nat} {front : Bytes} :
    take count input = .ok (front, rest) ↔ front.length = count ∧ input = front ++ rest := by
  rw [← Bytes.splitAt?_iff, take]
  cases input.splitAt? count <;> simp [Prod.ext_iff]

/-- A word is read wherever it is written, and nothing else reads as it. -/
theorem word_ok {count value : Nat} :
    word count input = .ok (value, rest) ↔ value < 256 ^ count ∧ input = Bytes.ofWord count value ++ rest := by
  simp only [word, Parser.bind_ok, Parser.pure_ok, take_ok]
  constructor
  · intro given
    obtain ⟨front, middle, ⟨rfl, rfl⟩, rfl, rfl⟩ := given
    exact ⟨front.toWord_lt, by rw [Bytes.ofWord_toWord]⟩
  · intro given
    obtain ⟨bound, rfl⟩ := given
    exact ⟨_, rest, ⟨Bytes.length_ofWord count value, rfl⟩, Bytes.toWord_ofWord bound, rfl⟩

end Decoder

namespace Reader

variable {α : Type} {input rest : Bytes}

theorem ofDecoder_ok {decoder : Decoder α} {value : α} :
    ofDecoder decoder input = .ok (value, rest) ↔ decoder input = .ok (value, rest) := by
  unfold ofDecoder
  cases decoder input with
  | error error => exact ⟨nofun, nofun⟩
  | ok taken => exact ⟨fun same => by cases same; rfl, fun same => by cases same; rfl⟩

theorem word_ok {count value : Nat} :
    word count input = .ok (value, rest) ↔ value < 256 ^ count ∧ input = Bytes.ofWord count value ++ rest :=
  ofDecoder_ok.trans Decoder.word_ok

end Reader

end Transducer
