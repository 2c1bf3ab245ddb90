import Mathlib.Data.List.Induction
import Transducer.Proofs.SymbolTables

/-! What a symbol table holds after any changes. A symbol keeps its label for good, and the label that a new symbol
gets is free as long as the last label of all is. Once that one is taken it is all that is offered, and the next
new symbol takes it over from the symbol that had it. -/

namespace Transducer.Symbols

inductive Change where
  | add (symbol : String)
  | addWith (symbol : String) (label : Label)

def change (symbols : Symbols) : Change → Except SymbolError Symbols
  | .add symbol => .ok (symbols.add symbol).1
  | .addWith symbol label => symbols.addWith symbol label

/-- A change that fails leaves the table as it was. -/
def after (symbols : Symbols) (change : Change) : Symbols := (symbols.change change).toOption.getD symbols

def afterAll (changes : List Change) : Symbols := changes.foldl after empty

def lastLabel : Label := 0xffffffff

/-- The change brings a new symbol when there is no label left behind the greatest. -/
def Overflows (symbols : Symbols) : Change → Prop
  | .add symbol => symbols.findLabel? symbol = none ∧ symbols.findSymbol? lastLabel ≠ none
  | .addWith _ _ => False

/-- Nothing that the first table says is changed or missing in the second one. -/
structure Kept (symbols next : Symbols) : Prop where
  labels : ∀ symbol label, symbols.findLabel? symbol = some label → next.findLabel? symbol = some label
  symbols : ∀ label symbol, symbols.findSymbol? label = some symbol → next.findSymbol? label = some symbol

/-- What holds of every table that changes lead to, even when a label has been given twice. -/
structure Consistent (symbols : Symbols) : Prop where
  named : ∀ label symbol, symbols.findSymbol? label = some symbol → symbols.findLabel? symbol = some label
  used : ∀ symbol label, symbols.findLabel? symbol = some label → symbols.findSymbol? label ≠ none
  counted : ∀ label symbol, symbols.findSymbol? label = some symbol →
    label < symbols.available ∨ label = lastLabel ∧ symbols.available = lastLabel

/-- The last label was taken over from a symbol that still has it. -/
def Clashes (symbols : Symbols) : Prop :=
  ∃ symbol, symbols.findLabel? symbol = some lastLabel ∧ symbols.findSymbol? lastLabel ≠ some symbol

variable {symbols next : Symbols} {symbol : String} {label : Label} {change : Change}

theorem le_lastLabel (label : Label) : label ≤ lastLabel := by
  have bound := label.toNat_lt
  rw [UInt32.le_iff_toNat_le]
  exact Nat.le_of_lt_succ bound

theorem lt_following (less : label ≠ lastLabel) : label < following label := by
  have bound : label.toNat < lastLabel.toNat := UInt32.lt_iff_toNat_lt.mp (UInt32.lt_of_le_of_ne (le_lastLabel label) less)
  have top : lastLabel.toNat = 2 ^ 32 - 1 := rfl
  have one : (1 : UInt32).toNat = 1 := rfl
  rw [following, if_neg (show ¬ label = 0xffffffff from less), UInt32.lt_iff_toNat_lt, UInt32.toNat_add]
  omega

theorem following_lastLabel : following lastLabel = lastLabel := if_pos rfl

theorem le_following (label : Label) : label ≤ following label := by
  by_cases last : label = lastLabel
  · exact UInt32.le_of_eq (if_pos last).symm
  · exact UInt32.le_of_lt (lt_following last)

theorem after_of_ok (done : symbols.change change = .ok next) : symbols.after change = next := by
  rw [after, done]
  rfl

theorem after_of_error {error : SymbolError} (failed : symbols.change change = .error error) :
    symbols.after change = symbols := by
  rw [after, failed]
  rfl

theorem empty_consistent : Consistent empty := ⟨nofun, nofun, nofun⟩

namespace Consistent

/-- Once the last label has a symbol no other label is offered. -/
theorem available_eq (consistent : symbols.Consistent) (taken : symbols.findSymbol? lastLabel = some symbol) :
    symbols.available = lastLabel := by
  rcases consistent.counted lastLabel symbol taken with less | ⟨_, full⟩
  · exact absurd (UInt32.lt_of_lt_of_le less (le_lastLabel _)) (UInt32.lt_irrefl _)
  · exact full

theorem available_free (consistent : symbols.Consistent) (room : symbols.findSymbol? lastLabel = none) :
    symbols.findSymbol? symbols.available = none := by
  refine Option.eq_none_iff_forall_ne_some.mpr fun symbol taken => ?_
  rcases consistent.counted symbols.available symbol taken with less | ⟨_, full⟩
  · exact UInt32.lt_irrefl _ less
  · cases room.symm.trans (full ▸ taken)

theorem bind (consistent : symbols.Consistent) (new : symbols.findLabel? symbol = none) :
    (symbols.bind symbol label).Consistent := by
  have other {known : String} {label : Label} (found : symbols.findLabel? known = some label) : symbol ≠ known := by
    rintro rfl
    cases new.symm.trans found
  constructor
  case named =>
    intro label' symbol' found
    rw [findSymbol?_bind] at found
    rw [findLabel?_bind]
    split at found
    next same => rw [if_pos (Option.some.inj found), same]
    next =>
      have known := consistent.named label' symbol' found
      rwa [if_neg (other known)]
  case used =>
    intro symbol' label' found
    rw [findLabel?_bind] at found
    rw [findSymbol?_bind]
    split at found
    next => simp [Option.some.inj found]
    next =>
      split
      next => nofun
      next => exact consistent.used symbol' label' found
  case counted =>
    intro label' symbol' found
    have moved : (symbols.bind symbol label).available =
        if symbols.available ≤ label then following label else symbols.available := rfl
    rw [findSymbol?_bind] at found
    rw [moved]
    split at found
    next same =>
      subst same
      split
      next =>
        by_cases last : label = lastLabel
        · exact .inr ⟨last, last ▸ following_lastLabel⟩
        · exact .inl (lt_following last)
      next ahead => exact .inl (UInt32.not_le.mp ahead)
    next other =>
      rcases consistent.counted label' symbol' found with less | ⟨last, full⟩
      · refine .inl ?_
        split
        next beyond => exact UInt32.lt_of_lt_of_le less (UInt32.le_trans beyond (le_following label))
        next => exact less
      · refine .inr ⟨last, ?_⟩
        split
        next beyond => exact absurd (UInt32.le_antisymm (last ▸ le_lastLabel label) (last ▸ full ▸ beyond)) other
        next => exact full

/-- A change leaves the table, binds a new symbol to a new label, or gives the last label once more. -/
theorem after_cases (consistent : symbols.Consistent) (change : Change) :
    (¬ symbols.Overflows change ∧ symbols.after change = symbols) ∨
    (¬ symbols.Overflows change ∧ ∃ symbol label, symbols.findLabel? symbol = none ∧
      symbols.findSymbol? label = none ∧ symbols.after change = symbols.bind symbol label) ∨
    (symbols.Overflows change ∧ symbols.findSymbol? lastLabel ≠ none ∧ ∃ symbol,
      symbols.findLabel? symbol = none ∧ symbols.after change = symbols.bind symbol lastLabel) := by
  cases change with
  | add symbol =>
    cases known : symbols.findLabel? symbol with
    | some label =>
      have same : symbols.add symbol = (symbols, label) := by simp only [add, known]
      exact .inl ⟨fun overflows => (by cases known.symm.trans overflows.1), congrArg Prod.fst same⟩
    | none =>
      have added : symbols.add symbol = (symbols.bind symbol symbols.available, symbols.available) := by
        simp only [add, known]
      have bound : symbols.after (.add symbol) = symbols.bind symbol symbols.available := congrArg Prod.fst added
      by_cases room : symbols.findSymbol? lastLabel = none
      · have free := consistent.available_free room
        exact .inr (.inl ⟨fun overflows => overflows.2 room, symbol, _, known, free, bound⟩)
      · obtain ⟨other, taken⟩ := Option.ne_none_iff_exists'.mp room
        rw [consistent.available_eq taken] at bound
        exact .inr (.inr ⟨⟨known, room⟩, room, symbol, known, bound⟩)
  | addWith symbol label =>
    cases outcome : symbols.addWith symbol label with
    | error error => exact .inl ⟨id, after_of_error outcome⟩
    | ok next =>
      have same : symbols.after (.addWith symbol label) = next := after_of_ok outcome
      rcases addWith_cases outcome with rfl | ⟨newSymbol, newLabel, rfl⟩
      · exact .inl ⟨id, same⟩
      · exact .inr (.inl ⟨id, symbol, label, newSymbol, newLabel, same⟩)

theorem after (consistent : symbols.Consistent) (change : Change) : (symbols.after change).Consistent := by
  rcases consistent.after_cases change with ⟨-, same⟩ | ⟨-, symbol, label, new, -, same⟩ | ⟨-, -, symbol, new, same⟩
  · rwa [same]
  · exact same ▸ consistent.bind new
  · exact same ▸ consistent.bind new

end Consistent

theorem Kept.refl (symbols : Symbols) : symbols.Kept symbols := ⟨fun _ _ => id, fun _ _ => id⟩

theorem Kept.bind (newSymbol : symbols.findLabel? symbol = none) (newLabel : symbols.findSymbol? label = none) :
    symbols.Kept (symbols.bind symbol label) := by
  constructor
  case labels =>
    intro symbol' label' found
    have other : symbol ≠ symbol' := fun same => by cases newSymbol.symm.trans (same ▸ found)
    rwa [findLabel?_bind, if_neg other]
  case symbols =>
    intro label' symbol' found
    have other : label ≠ label' := fun same => by cases newLabel.symm.trans (same ▸ found)
    rwa [findSymbol?_bind, if_neg other]

/-- A change keeps what the table says unless it gives the last label once more. -/
theorem Consistent.kept_iff (consistent : symbols.Consistent) (change : Change) :
    symbols.Kept (symbols.after change) ↔ ¬ symbols.Overflows change := by
  rcases consistent.after_cases change with ⟨spared, same⟩ | ⟨spared, symbol, label, newSymbol, newLabel, same⟩ |
    ⟨overflows, taken, symbol, new, same⟩
  · rw [same]
    exact iff_of_true (.refl symbols) spared
  · rw [same]
    exact iff_of_true (.bind newSymbol newLabel) spared
  · refine iff_of_false (fun kept => ?_) (not_not_intro overflows)
    obtain ⟨other, taken⟩ := Option.ne_none_iff_exists'.mp taken
    have still := kept.symbols lastLabel other taken
    rw [same, findSymbol?_bind, if_pos rfl] at still
    obtain rfl := Option.some.inj still
    cases new.symm.trans (consistent.named lastLabel symbol taken)

/-- A new symbol gets a label that no other symbol has unless it gets the last one once more. -/
theorem Consistent.fresh_iff (consistent : symbols.Consistent) (new : symbols.findLabel? symbol = none) :
    (∀ other, symbols.findLabel? other ≠ some (symbols.add symbol).2) ↔ ¬ symbols.Overflows (.add symbol) := by
  have given : (symbols.add symbol).2 = symbols.available := by simp only [add, new]
  rw [given]
  constructor
  · intro fresh overflows
    obtain ⟨other, taken⟩ := Option.ne_none_iff_exists'.mp overflows.2
    exact fresh other (consistent.available_eq taken ▸ consistent.named lastLabel other taken)
  · intro spared other found
    have room : symbols.findSymbol? lastLabel = none := Decidable.not_not.mp fun taken => spared ⟨new, taken⟩
    exact consistent.used other _ found (consistent.available_free room)

theorem Clashes.not_paired (clashes : symbols.Clashes) : ¬ symbols.Paired := by
  obtain ⟨symbol, found, lost⟩ := clashes
  exact fun paired => lost ((paired lastLabel symbol).mpr found)

theorem Clashes.bind (clashes : symbols.Clashes) (new : symbols.findLabel? symbol = none) :
    (symbols.bind symbol label).Clashes := by
  obtain ⟨older, found, lost⟩ := clashes
  have other : symbol ≠ older := fun same => by cases new.symm.trans (same ▸ found)
  refine ⟨older, by rwa [findLabel?_bind, if_neg other], ?_⟩
  rw [findSymbol?_bind]
  split
  next => simpa using other
  next => exact lost

/-- Symbols that have come to share a label share it for good. -/
theorem Clashes.after (consistent : symbols.Consistent) (clashes : symbols.Clashes) (change : Change) :
    (symbols.after change).Clashes := by
  rcases consistent.after_cases change with ⟨-, same⟩ | ⟨-, symbol, label, new, -, same⟩ | ⟨-, -, symbol, new, same⟩
  · rwa [same]
  · exact same ▸ clashes.bind new
  · exact same ▸ clashes.bind new

theorem Consistent.clashes (consistent : symbols.Consistent) (overflows : symbols.Overflows change) :
    (symbols.after change).Clashes := by
  rcases consistent.after_cases change with ⟨spared, -⟩ | ⟨spared, -⟩ | ⟨-, taken, symbol, new, same⟩
  · exact absurd overflows spared
  · exact absurd overflows spared
  · obtain ⟨older, taken⟩ := Option.ne_none_iff_exists'.mp taken
    have known := consistent.named lastLabel older taken
    have other : symbol ≠ older := fun equal => by cases new.symm.trans (equal ▸ known)
    refine ⟨older, ?_, ?_⟩
    · rwa [same, findLabel?_bind, if_neg other]
    · simpa [same, findSymbol?_bind] using other

theorem Paired.after (consistent : symbols.Consistent) (paired : symbols.Paired)
    (spared : ¬ symbols.Overflows change) : (symbols.after change).Paired := by
  rcases consistent.after_cases change with ⟨-, same⟩ | ⟨-, symbol, label, newSymbol, newLabel, same⟩ | ⟨overflows, -⟩
  · rwa [same]
  · exact same ▸ paired.bind newSymbol newLabel
  · exact absurd overflows spared

/-- The last label is given at most once. -/
def Spared (changes : List Change) : Prop :=
  ∀ front change, front ++ [change] <+: changes → ¬ (afterAll front).Overflows change

theorem afterAll_concat (changes : List Change) (change : Change) :
    afterAll (changes ++ [change]) = (afterAll changes).after change := by
  simp [afterAll]

theorem afterAll_consistent (changes : List Change) : (afterAll changes).Consistent := by
  induction changes using List.reverseRecOn with
  | nil => exact empty_consistent
  | append_singleton changes change ih => exact afterAll_concat changes change ▸ ih.after change

theorem spared_concat (changes : List Change) (change : Change) :
    Spared (changes ++ [change]) ↔ Spared changes ∧ ¬ (afterAll changes).Overflows change := by
  constructor
  · intro spared
    exact ⟨fun front next before => spared front next (before.trans (List.prefix_append ..)),
      spared changes change (List.prefix_refl _)⟩
  · intro given front next before
    rcases List.prefix_concat_iff.mp before with same | before
    · obtain ⟨rfl, rfl⟩ := List.append_singleton_inj.mp same
      exact given.2
    · exact given.1 front next before

/-- The maps of a table undo each other until the last label is given once more, and then never again. -/
theorem afterAll_settles (changes : List Change) :
    (Spared changes ∧ (afterAll changes).Paired) ∨ (¬ Spared changes ∧ (afterAll changes).Clashes) := by
  induction changes using List.reverseRecOn with
  | nil => exact .inl ⟨fun front change before => by simp at before, empty_paired⟩
  | append_singleton changes change ih =>
    have consistent := afterAll_consistent changes
    rw [afterAll_concat, spared_concat]
    rcases ih with ⟨spared, paired⟩ | ⟨full, clashes⟩
    · by_cases overflows : (afterAll changes).Overflows change
      · exact .inr ⟨fun given => given.2 overflows, consistent.clashes overflows⟩
      · exact .inl ⟨⟨spared, overflows⟩, paired.after consistent overflows⟩
    · exact .inr ⟨fun given => full given.1, clashes.after consistent change⟩

/-- After any changes, of which some may fail, symbols and labels belong together in pairs if and only if the last
label was given at most once. A change keeps all pairs, and a new symbol gets a label of its own, if and only if the
change does not give the last label once more. -/
theorem changes_settle (changes : List Change) :
    ((∀ symbol label, (afterAll changes).findLabel? symbol = some label ↔
      (afterAll changes).findSymbol? label = some symbol) ↔ Spared changes) ∧
    (∀ change, (afterAll changes).Kept ((afterAll changes).after change) ↔ ¬ (afterAll changes).Overflows change) ∧
    (∀ symbol, (afterAll changes).findLabel? symbol = none →
      ((∀ other, (afterAll changes).findLabel? other ≠ some ((afterAll changes).add symbol).2) ↔
        ¬ (afterAll changes).Overflows (.add symbol))) ∧
    (∀ change error, (afterAll changes).change change = .error error →
      (afterAll changes).after change = afterAll changes) := by
  have consistent := afterAll_consistent changes
  refine ⟨?_, consistent.kept_iff, fun symbol new => consistent.fresh_iff new, fun change error failed => ?_⟩
  · rcases afterAll_settles changes with ⟨spared, paired⟩ | ⟨full, clashes⟩
    · exact iff_of_true (fun symbol label => (paired label symbol).symm) spared
    · exact iff_of_false (fun pairs => clashes.not_paired fun label symbol => (pairs symbol label).symm) full
  · rw [after, failed]
    rfl

/-- Two symbols, of which the second is new when the first one has the last label. -/
def crowded : List Change := [.addWith "a" lastLabel, .add "b"]

/-- The second symbol gets the label that the first one has, and takes its place. -/
theorem crowded_not_paired :
    (afterAll crowded).findLabel? "a" = some lastLabel ∧ (afterAll crowded).findLabel? "b" = some lastLabel ∧
    (afterAll crowded).findSymbol? lastLabel = some "b" ∧
    ¬ (∀ symbol label, (afterAll crowded).findLabel? symbol = some label ↔
      (afterAll crowded).findSymbol? label = some symbol) := by
  have first : (afterAll crowded).findLabel? "a" = some lastLabel := by decide +kernel
  have second : (afterAll crowded).findLabel? "b" = some lastLabel := by decide +kernel
  have named : (afterAll crowded).findSymbol? lastLabel = some "b" := by decide +kernel
  refine ⟨first, second, named, fun pairs => ?_⟩
  exact absurd (named.symm.trans ((pairs "a" lastLabel).mp first)) (by decide)

end Transducer.Symbols
