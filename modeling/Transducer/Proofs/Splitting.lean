import Transducer.Proofs.CompositeText
import Transducer.Proofs.Parsing
import Transducer.Text.Encoding

/-! Splitting undoes joining and does nothing else. It stops behind the first text that can be a left component, which
is told by its separators where there are no parentheses and by the nesting of its parentheses where there are. Byte
offsets cut the text in the same two pieces. -/

namespace Transducer

namespace Text

theorem encode_append (first second : List Char) : encode (first ++ second) = encode first ++ encode second := by
  simp [encode]

theorem length_encode_singleton (c : Char) : (encode [c]).length = c.utf8Size := by
  simp [encode, List.utf8Encode_singleton]

end Text

namespace TextFormat

variable {format : TextFormat} {text left right : List Char} {c opening closing : Char}
  {fields arity depth seen : Nat}

/-- Splitting that starts at this depth, with so many fields ended, stops right behind the text. -/
def Ends (format : TextFormat) (fields : Nat) (depth seen : Nat) : List Char → Prop
  | [] => depth = 0 ∧ seen + 1 = fields
  | c :: rest =>
    if format.opens c then Ends format fields (depth + 1) seen rest
    else if format.closes c then depth ≠ 0 ∧ Ends format fields (depth - 1) seen rest
    else if c = format.separator ∧ depth = 0 then seen + 1 ≠ fields ∧ Ends format fields depth (seen + 1) rest
    else Ends format fields depth seen rest

section Scan

variable {result : Except SplitError (List Char × List Char)} {d : Char}

theorem keep_nil : (result.map fun (left, right) => (c :: left, right)) ≠ .ok ([], right) := by
  cases result <;> exact nofun

theorem keep_cons : (result.map fun (left, right) => (c :: left, right)) = .ok (d :: left, right) ↔
    c = d ∧ result = .ok (left, right) := by
  cases result with
  | error reason => exact ⟨nofun, nofun⟩
  | ok pair => simp [Except.map, Prod.ext_iff, and_assoc]

theorem splitFrom_ok (apart : format.Apart) : splitFrom format fields depth seen text = .ok (left, right) ↔
    text = left ++ format.separator :: right ∧ format.Ends fields depth seen left := by
  obtain ⟨notOpening, notClosing⟩ := apart.separates
  -- A scan that goes on keeps the first character on its left, so the text and the left component get shorter together.
  induction text generalizing depth seen left with
  | nil => simp [splitFrom]
  | cons c text ih =>
    cases left with
    | nil =>
      rw [List.nil_append, List.cons.injEq, Ends]
      by_cases same : c = format.separator
      · subst same
        simp only [splitFrom, notOpening, notClosing, Bool.false_eq_true, if_false, true_and]
        split_ifs with shallow last
        · simp [shallow, last]
        · simp [keep_nil, last]
        · simp [keep_nil, shallow]
      · simp only [splitFrom, same, false_and, if_false, iff_false]
        split_ifs <;> simp [keep_nil]
    | cons d left =>
      rw [List.cons_append, List.cons.injEq, Ends, splitFrom]
      by_cases same : c = d
      · subst same
        split_ifs <;> simp [keep_cons, *]
      · split_ifs <;> simp [keep_cons, same]

end Scan

/-- The parentheses that a text opens less those that it closes. -/
def nesting (format : TextFormat) (text : List Char) : Int := text.countP format.opens - text.countP format.closes

/-- Read from the given depth on, the text never closes more than is open and leaves nothing open at its end, and all
its separators are within parentheses. -/
structure Nested (format : TextFormat) (depth : Nat) (text : List Char) : Prop where
  unclosed : ∀ front, front <+: text → 0 ≤ depth + format.nesting front
  closed : depth + format.nesting text = 0
  enclosed : ∀ front rest, text = front ++ format.separator :: rest → depth + format.nesting front ≠ 0

/-- What can be a left component of so many fields. Without parentheses it has one separator less than fields, and
with parentheses they are nested in it, whatever the number of fields. -/
def Complete (format : TextFormat) (arity : Nat) (text : List Char) : Prop :=
  match format.parentheses with
  | none => text.count format.separator + 1 = arity
  | some _ => format.Nested 0 text

section Nesting

theorem nesting_nil : format.nesting [] = 0 := rfl

theorem nesting_cons (c : Char) (text : List Char) :
    format.nesting (c :: text) = format.nesting [c] + format.nesting text := by
  simp only [nesting, List.countP_cons, List.countP_nil]
  omega

theorem nested_nil : format.Nested depth [] ↔ depth = 0 := by
  constructor
  · intro nested
    have closed := nested.closed
    rw [nesting_nil] at closed
    omega
  · rintro rfl
    refine ⟨fun front begins => ?_, rfl, fun front rest split => ?_⟩
    · rw [List.prefix_nil.mp begins]
      exact Int.le_refl 0
    · exact absurd split (by simp)

theorem nested_cons {next : Nat} (moved : (next : Int) = depth + format.nesting [c]) :
    format.Nested depth (c :: text) ↔ (c = format.separator → depth ≠ 0) ∧ format.Nested next text := by
  have shifted (front : List Char) : depth + format.nesting (c :: front) = next + format.nesting front := by
    rw [nesting_cons]
    omega
  constructor
  · intro nested
    refine ⟨fun same shallow => ?_, ⟨fun front begins => ?_, ?_, fun front rest split => ?_⟩⟩
    · exact nested.enclosed [] text (by rw [same]; rfl) (by rw [shallow]; rfl)
    · rw [← shifted]
      exact nested.unclosed _ (List.cons_prefix_cons.mpr ⟨rfl, begins⟩)
    · rw [← shifted]
      exact nested.closed
    · rw [← shifted]
      exact nested.enclosed _ rest (congrArg (c :: ·) split)
  · rintro ⟨deep, nested⟩
    refine ⟨fun front begins => ?_, (shifted text).trans nested.closed, fun front rest split => ?_⟩
    · rcases List.prefix_cons_iff.mp begins with rfl | ⟨inner, rfl, within⟩
      · rw [nesting_nil]
        omega
      · rw [shifted]
        exact nested.unclosed inner within
    · rcases List.cons_eq_append_iff.mp split with ⟨rfl, same⟩ | ⟨inner, rfl, within⟩
      · have shallow := deep (List.cons.inj same).1.symm
        rw [nesting_nil]
        omega
      · rw [shifted]
        exact nested.enclosed inner rest within

theorem ends_bare (bare : format.parentheses = none) :
    format.Ends fields 0 seen text ↔ seen + text.count format.separator + 1 = fields := by
  induction text generalizing seen with
  | nil => simp [Ends]
  | cons c text ih =>
    have neither : format.opens c = false ∧ format.closes c = false := by simp [opens, closes, bare]
    rw [Ends, if_neg (by simp [neither]), if_neg (by simp [neither]), List.count_cons]
    by_cases same : c = format.separator
    · rw [if_pos ⟨same, rfl⟩, ih, if_pos (by simp [same])]
      omega
    · rw [if_neg fun both => same both.1, ih, if_neg (by simp [same])]
      rfl

theorem ends_nested (apart : format.Apart) (wrapped : format.parentheses ≠ none) :
    format.Ends 1 depth 0 text ↔ format.Nested depth text := by
  obtain ⟨notOpening, notClosing⟩ := apart.separates
  obtain ⟨pair, parentheses⟩ := Option.ne_none_iff_exists'.mp wrapped
  obtain ⟨-, -, distinct⟩ := apart pair parentheses
  have exclusive {c : Char} (opens : format.opens c = true) : format.closes c = false := by
    simp_all [TextFormat.opens, TextFormat.closes]
  have ordinary {c : Char} (opens : format.opens c = true ∨ format.closes c = true) : c ≠ format.separator := by
    rintro rfl
    simp [notOpening, notClosing] at opens
  induction text generalizing depth with
  | nil => simp [Ends, nested_nil]
  | cons c text ih =>
    rw [Ends]
    cases opened : format.opens c with
    | true =>
      have moved : ((depth + 1 : Nat) : Int) = depth + format.nesting [c] := by
        simp [nesting, opened, exclusive opened]
      rw [if_pos rfl, nested_cons moved, and_iff_right fun same => absurd same (ordinary (.inl opened))]
      exact ih
    | false =>
      rw [if_neg Bool.false_ne_true]
      cases closed : format.closes c with
      | true =>
        rw [if_pos rfl]
        have step : format.nesting [c] = -1 := by simp [nesting, opened, closed]
        cases depth with
        | zero =>
          -- The depth is a natural number, so it takes the front up to here to see that too much is closed.
          refine iff_of_false (fun deep => deep.1 rfl) fun nested => ?_
          have unclosed := nested.unclosed [c] (List.prefix_append [c] text)
          rw [step] at unclosed
          omega
        | succ depth =>
          have moved : (depth : Int) = (depth + 1 : Nat) + format.nesting [c] := by omega
          rw [nested_cons moved, and_iff_right fun same => absurd same (ordinary (.inr closed)),
            and_iff_right (Nat.succ_ne_zero depth)]
          exact ih
      | false =>
        have moved : (depth : Int) = depth + format.nesting [c] := by simp [nesting, opened, closed]
        rw [if_neg Bool.false_ne_true, nested_cons moved]
        split_ifs with stop
        · exact iff_of_false (fun more => more.1 rfl) fun nested => nested.1 stop.1 stop.2
        · rw [and_iff_right fun same shallow => stop ⟨same, shallow⟩]
          exact ih

end Nesting

theorem unwrap?_eq_some : unwrap? opening closing text = some left ↔ text = opening :: (left ++ [closing]) := by
  cases text with
  | nil => exact ⟨nofun, nofun⟩
  | cons c rest =>
    rw [unwrap?, Option.ite_none_right_eq_some, Option.some_inj, List.cons.injEq, List.getLast?_eq_some_iff]
    constructor
    · rintro ⟨⟨rfl, body, rfl⟩, rfl⟩
      rw [List.dropLast_concat]
      exact ⟨rfl, rfl⟩
    · rintro ⟨rfl, rfl⟩
      exact ⟨⟨rfl, left, rfl⟩, List.dropLast_concat⟩

theorem split_ok (apart : format.Apart) : format.split text arity = .ok (left, right) ↔
    text = format.join left right ∧ format.Complete arity left := by
  rw [split, mapError_ok]
  cases parentheses : format.parentheses with
  | none =>
    simp only [join, Complete, parentheses]
    rw [splitFrom_ok apart, ends_bare parentheses, Nat.zero_add]
  | some pair =>
    simp only [join, Complete, parentheses]
    have wrapped : format.parentheses ≠ none := by simp [parentheses]
    rw [← ends_nested apart wrapped]
    cases unwrapped : unwrap? pair.1 pair.2 text with
    | none =>
      refine iff_of_false (fun done => ?_) fun joined => ?_
      · cases done
      · rw [unwrap?_eq_some.mpr joined.1] at unwrapped
        cases unwrapped
    | some body =>
      rw [unwrap?_eq_some.mp unwrapped, List.cons_append, List.cons_append, List.cons.injEq, and_iff_right rfl,
        List.append_left_inj]
      exact splitFrom_ok apart

/-- Whatever goes wrong is reported as a malformed composite. -/
theorem split_error {error : WeightTextError} (failed : format.split text arity = .error error) :
    ∃ reason, error = .malformed text reason := by
  have renamed {result : Except SplitError (List Char × List Char)}
      (failed : result.mapError (WeightTextError.malformed text) = .error error) :
      ∃ reason, error = .malformed text reason := by
    cases result with
    | ok pair => cases failed
    | error reason => exact ⟨reason, (Except.error.inj failed).symm⟩
  exact renamed failed

/-! The same scan by offsets in bytes, which the text is cut at. -/

/-- Where the left component ends and the right one begins, for a scan that starts at the given offset. -/
def bounds (format : TextFormat) (fields : Nat) (offset depth seen : Nat) : List Char → Except SplitError (Nat × Nat)
  | [] => .error .tooFewComponents
  | c :: rest =>
    let next := offset + c.utf8Size
    if format.opens c then bounds format fields next (depth + 1) seen rest
    else if format.closes c then
      if depth = 0 then .error .unbalancedParentheses else bounds format fields next (depth - 1) seen rest
    else if c = format.separator ∧ depth = 0 then
      if seen + 1 = fields then .ok (offset, next) else bounds format fields next depth (seen + 1) rest
    else bounds format fields next depth seen rest

/-- The bytes before the one offset and those from the other on. -/
def cut (bytes : Bytes) (bounds : Nat × Nat) : Bytes × Bytes := (bytes.take bounds.1, bytes.drop bounds.2)

def splitBytes (format : TextFormat) (text : List Char) (leftArity : Nat) : Except WeightTextError (Bytes × Bytes) :=
  let components := match format.parentheses with
    | some (opening, closing) =>
      match unwrap? opening closing text with
      | some body => (bounds format 1 0 0 0 body).map (cut (Text.encode body))
      | none => .error .missingParentheses
    | none => (bounds format leftArity 0 0 0 text).map (cut (Text.encode text))
  components.mapError (.malformed text)

/-- The two offsets for a left component that begins at the given one. -/
def behind (format : TextFormat) (offset : Nat) (left : List Char) : Nat × Nat :=
  (offset + (Text.encode left).length, offset + (Text.encode left).length + format.separator.utf8Size)

theorem behind_cons (offset : Nat) (c : Char) (left : List Char) :
    format.behind offset (c :: left) = format.behind (offset + c.utf8Size) left := by
  have sized : (Text.encode (c :: left)).length = c.utf8Size + (Text.encode left).length := by
    rw [← List.singleton_append, Text.encode_append, List.length_append, Text.length_encode_singleton]
  rw [behind, sized, ← Nat.add_assoc]
  rfl

theorem bounds_eq {offset : Nat} : format.bounds fields offset depth seen text =
    (splitFrom format fields depth seen text).map fun pair => format.behind offset pair.1 := by
  have passed {result : Except SplitError (List Char × List Char)} {offset : Nat} {c : Char} :
      (result.map fun pair => format.behind (offset + c.utf8Size) pair.1) =
        (result.map fun (left, right) => (c :: left, right)).map fun pair => format.behind offset pair.1 := by
    cases result with
    | error reason => rfl
    | ok pair => exact congrArg Except.ok (behind_cons offset c pair.1).symm
  induction text generalizing offset depth seen with
  | nil => rfl
  | cons c text ih =>
    simp only [bounds, splitFrom, ih, passed]
    split_ifs with opened closed shallow stop last
    · rfl
    · rfl
    · rfl
    · rw [stop.1]
      rfl
    · rfl
    · rfl

theorem cut_behind (left right : List Char) :
    cut (Text.encode (left ++ format.separator :: right)) (format.behind 0 left) =
      (Text.encode left, Text.encode right) := by
  have split : Text.encode (left ++ format.separator :: right) =
      Text.encode left ++ (Text.encode [format.separator] ++ Text.encode right) := by
    rw [← Text.encode_append, ← Text.encode_append]
    rfl
  rw [cut, behind, Nat.zero_add, split, List.take_left, ← List.append_assoc]
  rw [List.drop_left' (by rw [List.length_append, Text.length_encode_singleton])]

theorem bounds_cut (apart : format.Apart) : (format.bounds fields 0 0 0 text).map (cut (Text.encode text)) =
    (splitFrom format fields 0 0 text).map fun (left, right) => (Text.encode left, Text.encode right) := by
  rw [bounds_eq]
  cases found : splitFrom format fields 0 0 text with
  | error reason => rfl
  | ok pair =>
    obtain ⟨joined, -⟩ := (splitFrom_ok apart).mp found
    rw [joined]
    exact congrArg Except.ok (cut_behind pair.1 pair.2)

theorem splitBytes_eq (apart : format.Apart) : format.splitBytes text arity =
    (format.split text arity).map fun (left, right) => (Text.encode left, Text.encode right) := by
  have renamed {result : Except SplitError (List Char × List Char)} {change : SplitError → WeightTextError} :
      (result.map fun (left, right) => (Text.encode left, Text.encode right)).mapError change =
        (result.mapError change).map fun (left, right) => (Text.encode left, Text.encode right) := by
    cases result <;> rfl
  rw [splitBytes, split, ← renamed]
  cases parentheses : format.parentheses with
  | none => exact congrArg (Except.mapError _) (bounds_cut apart)
  | some pair =>
    simp only
    cases unwrap? pair.1 pair.2 text with
    | none => rfl
    | some body => exact congrArg (Except.mapError _) (bounds_cut apart)

/-- A text is split if and only if it is joined of a complete left component and any right one, which are then the two
pieces. Any other text is reported as malformed. Cutting by offsets in bytes gives the bytes of the same pieces. -/
theorem splitting_inverts (apart : format.Apart) (text : List Char) (arity : Nat) :
    (∀ left right, format.split text arity = .ok (left, right) ↔
      text = format.join left right ∧ format.Complete arity left) ∧
    ((¬ ∃ left right, text = format.join left right ∧ format.Complete arity left) ↔
      ∃ reason, format.split text arity = .error (.malformed text reason)) ∧
    format.splitBytes text arity =
      (format.split text arity).map fun (left, right) => (Text.encode left, Text.encode right) := by
  refine ⟨fun left right => split_ok apart, ⟨fun whole => ?_, ?_⟩, splitBytes_eq apart⟩
  · cases done : format.split text arity with
    | ok pair => exact absurd ⟨_, _, (split_ok apart).mp done⟩ whole
    | error error =>
      obtain ⟨reason, rfl⟩ := split_error done
      exact ⟨reason, rfl⟩
  · rintro ⟨reason, failed⟩ ⟨left, right, joined⟩
    rw [(split_ok apart).mpr joined] at failed
    cases failed

theorem angled_split :
    let angled : TextFormat := { separator := '·', parentheses := some ('⟨', '⟩') }
    angled.Apart ∧
      "⟨⟨1·2⟩·3⟩".toList = angled.join "⟨1·2⟩".toList "3".toList ∧ angled.Complete 1 "⟨1·2⟩".toList ∧
      (¬ ∃ left right, "⟨1⟩·2⟩".toList = angled.join left right ∧ angled.Complete 1 left) ∧
      angled.splitBytes "⟨⟨1·2⟩·3⟩".toList 1 = .ok (Text.encode "⟨1·2⟩".toList, Text.encode "3".toList) := by
  intro angled
  have apart : angled.Apart := by
    rintro pair ⟨⟩
    decide
  have done : angled.split "⟨⟨1·2⟩·3⟩".toList 1 = .ok ("⟨1·2⟩".toList, "3".toList) := by decide +kernel
  obtain ⟨found, -, sliced⟩ := splitting_inverts apart "⟨⟨1·2⟩·3⟩".toList 1
  obtain ⟨joined, complete⟩ := (found _ _).mp done
  refine ⟨apart, joined, complete, ?_, by rw [sliced, done]; rfl⟩
  exact (splitting_inverts apart "⟨1⟩·2⟩".toList 1).2.1.mpr ⟨.unbalancedParentheses, by decide +kernel⟩

end TextFormat

end Transducer
