import Transducer.Proofs.Parsing
import Transducer.Proofs.TextFields
import Transducer.Symbols

/-! Symbol tables as they come from text. The two maps of a table undo each other, and every symbol in it is a
single field. -/

namespace Transducer.Symbols

variable {symbols next : Symbols} {symbol : String} {label : Label}

/-- A label has a symbol if and only if the symbol has the label. -/
def Paired (symbols : Symbols) : Prop :=
  ∀ label symbol, symbols.findSymbol? label = some symbol ↔ symbols.findLabel? symbol = some label

def Printable (symbols : Symbols) : Prop :=
  ∀ label symbol, symbols.findSymbol? label = some symbol → Text.Word symbol.toList

theorem findSymbol?_bind (other : Label) :
    (symbols.bind symbol label).findSymbol? other =
      if label = other then some symbol else symbols.findSymbol? other := by
  simp [findSymbol?, bind, Std.TreeMap.getElem?_insert]

theorem findLabel?_bind (other : String) :
    (symbols.bind symbol label).findLabel? other = if symbol = other then some label else symbols.findLabel? other := by
  simp [findLabel?, bind, Std.TreeMap.getElem?_insert]

theorem empty_paired : Paired empty := fun _ _ => ⟨nofun, nofun⟩

theorem empty_printable : Printable empty := fun _ _ => nofun

/-- A new symbol with a new label. -/
theorem Paired.bind (paired : symbols.Paired) (newSymbol : symbols.findLabel? symbol = none)
    (newLabel : symbols.findSymbol? label = none) : (symbols.bind symbol label).Paired := by
  intro label' symbol'
  rw [findSymbol?_bind, findLabel?_bind]
  by_cases sameLabel : label = label'
  · subst sameLabel
    have unknown : symbols.findLabel? symbol' ≠ some label := fun known => by
      cases newLabel.symm.trans ((paired label symbol').mpr known)
    by_cases sameSymbol : symbol = symbol' <;> simp [sameSymbol, unknown]
  · by_cases sameSymbol : symbol = symbol'
    · subst sameSymbol
      simp [sameLabel, paired label' symbol, newSymbol]
    · simpa [sameLabel, sameSymbol] using paired label' symbol'

theorem Printable.bind (printable : symbols.Printable) (word : Text.Word symbol.toList) :
    (symbols.bind symbol label).Printable := by
  intro label' symbol' found
  rw [findSymbol?_bind] at found
  split at found
  next => exact Option.some.inj found ▸ word
  next => exact printable label' symbol' found

/-- A table either has the pair already, or has it as a new one. -/
theorem addWith_cases (done : symbols.addWith symbol label = .ok next) :
    next = symbols ∨
    symbols.findLabel? symbol = none ∧ symbols.findSymbol? label = none ∧ next = symbols.bind symbol label := by
  unfold addWith at done
  split at done
  next other _ known _ =>
    split at done
    next => exact .inl (Except.ok.inj done).symm
    next => cases done
  next => cases done
  next newSymbol newLabel => exact .inr ⟨newSymbol, newLabel, (Except.ok.inj done).symm⟩

theorem addLine_cases {number : Nat} {fields : List (List Char)} (done : symbols.addLine number fields = .ok next) :
    next = symbols ∨ ∃ field ∈ fields, ∃ label, symbols.addWith (String.ofList field) label = .ok next := by
  unfold addLine at done
  split at done
  next => exact .inl (Except.ok.inj done).symm
  next => cases done
  next field second rest =>
    split at done
    next => cases done
    next label _ =>
      split at done
      next => exact .inr ⟨field, List.mem_cons_self, label, done⟩
      next => cases done

/-- What every new pair of a word and a label keeps holds of what is read. -/
theorem addLines_keeps {kept : Symbols → Prop} {number : Nat} {texts : List (List Char)}
    (bind : ∀ {symbols : Symbols} {symbol label}, kept symbols → Text.Word symbol.toList →
      symbols.findLabel? symbol = none → symbols.findSymbol? label = none → kept (symbols.bind symbol label))
    (holds : kept symbols) (done : symbols.addLines number texts = .ok next) : kept next := by
  induction texts generalizing symbols number with
  | nil => exact Except.ok.inj done ▸ holds
  | cons text texts ih =>
    obtain ⟨middle, first, later⟩ := except_bind_ok.mp done
    refine ih ?_ later
    rcases addLine_cases first with rfl | ⟨field, member, label, added⟩
    · exact holds
    · rcases addWith_cases added with rfl | ⟨newSymbol, newLabel, rfl⟩
      · exact holds
      · have word : Text.Word (String.ofList field).toList := String.toList_ofList ▸ Text.word_of_mem_fields member
        exact bind holds word newSymbol newLabel

theorem ofText_paired {text : List Char} (read : ofText text = .ok symbols) : symbols.Paired :=
  addLines_keeps (fun paired _ newSymbol newLabel => paired.bind newSymbol newLabel) empty_paired read

theorem ofText_printable {text : List Char} (read : ofText text = .ok symbols) : symbols.Printable :=
  addLines_keeps (fun printable word _ _ => printable.bind word) empty_printable read

end Transducer.Symbols
