import Mathlib.Data.List.Basic
import Transducer.Tool.Arguments

/-! Options among the arguments. From left to right the arguments fall into segments in one way only, whatever a value
looks like. The last value for the option counts, and the arguments that are neither option nor value are left in their
order. -/

namespace Transducer.Arguments

/-- What is read at a time when an option is taken out. A value is part of its argument, or it is the argument after
the name. -/
inductive Segment where
  | attached (value : String)
  | pair (value : String)
  | other (argument : String)
deriving DecidableEq, Repr

namespace Segment

/-- The arguments of a segment. -/
def written (name : String) : Segment → List String
  | attached value => [name ++ "=" ++ value]
  | pair value => [name, value]
  | other argument => [argument]

def value? : Segment → Option String
  | attached value | pair value => some value
  | other _ => none

def argument? : Segment → Option String
  | attached _ | pair _ => none
  | other argument => some argument

end Segment

/-- The argument is the option in neither form. -/
def Clear (name argument : String) : Prop := argument ≠ name ∧ ∀ value, argument ≠ name ++ "=" ++ value

def written (name : String) (segments : List Segment) : List String := segments.flatMap (·.written name)

/-- The name without a value, if the arguments end in it. -/
def ending (name : String) (unfinished : Bool) : List String := if unfinished then [name] else []

/-- The arguments, segment by segment, with nothing behind them but perhaps the name. -/
@[ext]
structure Reading (name : String) (arguments : List String) where
  segments : List Segment
  unfinished : Bool
  clear : ∀ argument ∈ segments.filterMap Segment.argument?, Clear name argument
  whole : arguments = written name segments ++ ending name unfinished

/-- The values that are given for the option. -/
def Reading.values {name : String} {arguments : List String} (reading : Reading name arguments) : List String :=
  reading.segments.filterMap Segment.value?

def Reading.others {name : String} {arguments : List String} (reading : Reading name arguments) : List String :=
  reading.segments.filterMap Segment.argument?

variable {name argument : String} {arguments rest rest' kept : List String} {value : Option String}
  {segment other : Segment} {segments : List Segment} {unfinished unfinished' : Bool}

section Attached

variable {attached : String}

theorem attachedValue?_eq_some :
    attachedValue? name argument = some attached ↔ argument = name ++ "=" ++ attached := by
  simp only [attachedValue?, Option.map_eq_some_iff, List.isPrefixOf?_eq_some_iff_append_eq]
  constructor
  · rintro ⟨characters, same, rfl⟩
    apply String.toList_inj.mp
    simp [← same]
  · rintro rfl
    exact ⟨attached.toList, by simp, String.ofList_toList⟩

theorem attachedValue?_eq_none :
    attachedValue? name argument = none ↔ ∀ attached, argument ≠ name ++ "=" ++ attached := by
  simp only [Option.eq_none_iff_forall_ne_some, ne_eq, attachedValue?_eq_some]

theorem name_ne_attached (name attached : String) : name ≠ name ++ "=" ++ attached := by
  intro same
  have lengths := congrArg (List.length ∘ String.toList) same
  simp at lengths

theorem attachedValue?_self (name : String) : attachedValue? name name = none :=
  attachedValue?_eq_none.mpr (name_ne_attached name)

end Attached

/-- What is left of the rest comes after what is kept before it. -/
def keeping (kept : List String) (outcome : Except UsageError (Option String × List String)) :
    Except UsageError (Option String × List String) :=
  outcome.map fun (value, rest) => (value, kept ++ rest)

section Step

variable {outcome : Except UsageError (Option String × List String)}

theorem keeping_nil : keeping [] outcome = outcome := by cases outcome <;> rfl

theorem keeping_keeping : keeping kept (keeping rest outcome) = keeping (kept ++ rest) outcome := by
  cases outcome with
  | error error => rfl
  | ok taken => exact congrArg Except.ok (Prod.ext rfl (List.append_assoc kept rest taken.2).symm)

theorem takeOptionFrom_attached (attached : String) :
    takeOptionFrom name value ((name ++ "=" ++ attached) :: rest) = takeOptionFrom name (some attached) rest := by
  have found : attachedValue? name (name ++ "=" ++ attached) = some attached := attachedValue?_eq_some.mpr rfl
  rw [takeOptionFrom.eq_def name value (_ :: rest)]
  simp only [found]

theorem takeOptionFrom_pair (following : String) :
    takeOptionFrom name value (name :: following :: rest) = takeOptionFrom name (some following) rest := by
  rw [takeOptionFrom.eq_def name value (name :: _)]
  simp only [attachedValue?_self, if_true]

theorem takeOptionFrom_name : takeOptionFrom name value [name] = .error (.missingValue name) := by
  rw [takeOptionFrom.eq_def]
  simp only [attachedValue?_self, if_true]

theorem takeOptionFrom_other (clear : Clear name argument) :
    takeOptionFrom name value (argument :: rest) = keeping [argument] (takeOptionFrom name value rest) := by
  rw [takeOptionFrom.eq_def name value (argument :: rest)]
  simp only [attachedValue?_eq_none.mpr clear.2, if_neg clear.1]
  cases takeOptionFrom name value rest <;> rfl

/-- One segment is read at a time. Its value goes before the value so far. -/
theorem takeOptionFrom_segment (clear : ∀ argument ∈ segment.argument?, Clear name argument) :
    takeOptionFrom name value (segment.written name ++ rest) =
      keeping segment.argument?.toList (takeOptionFrom name (segment.value?.or value) rest) := by
  cases segment with
  | attached attached => exact (takeOptionFrom_attached attached).trans keeping_nil.symm
  | pair following => exact (takeOptionFrom_pair following).trans keeping_nil.symm
  | other argument => exact takeOptionFrom_other (clear argument rfl)

end Step

theorem arguments_cons (segment : Segment) (segments : List Segment) :
    (segment :: segments).filterMap Segment.argument? =
      segment.argument?.toList ++ segments.filterMap Segment.argument? := by
  cases segment <;> rfl

/-- A later value goes before an earlier one. -/
theorem getLast?_values_cons (segment : Segment) (segments : List Segment) (value : Option String) :
    ((segment :: segments).filterMap Segment.value?).getLast?.or value =
      (segments.filterMap Segment.value?).getLast?.or (segment.value?.or value) := by
  cases given : segment.value? with
  | none => rw [List.filterMap_cons_none given, Option.none_or]
  | some value =>
    rw [List.filterMap_cons_some given, List.getLast?_cons]
    cases (segments.filterMap Segment.value?).getLast? <;> rfl

theorem clear_cons : (∀ argument ∈ (segment :: segments).filterMap Segment.argument?, Clear name argument) ↔
    (∀ argument ∈ segment.argument?, Clear name argument) ∧
      ∀ argument ∈ segments.filterMap Segment.argument?, Clear name argument := by
  rw [arguments_cons, List.forall_mem_append]
  simp only [Option.mem_toList, Option.mem_def]

theorem written_cons (name : String) (segment : Segment) (segments : List Segment) :
    written name (segment :: segments) ++ rest = segment.written name ++ (written name segments ++ rest) := by
  rw [written, List.flatMap_cons, List.append_assoc, written]

theorem takeOptionFrom_written (clear : ∀ argument ∈ segments.filterMap Segment.argument?, Clear name argument) :
    takeOptionFrom name value (written name segments ++ rest) =
      keeping (segments.filterMap Segment.argument?)
        (takeOptionFrom name ((segments.filterMap Segment.value?).getLast?.or value) rest) := by
  induction segments generalizing value with
  | nil => exact keeping_nil.symm
  | cons segment segments ih =>
    obtain ⟨here, later⟩ := clear_cons.mp clear
    rw [written_cons, takeOptionFrom_segment here, ih later, keeping_keeping, arguments_cons, getLast?_values_cons]

/-- The first argument tells which segment comes first. -/
theorem segment_inj (clear : ∀ argument ∈ segment.argument?, Clear name argument)
    (clear' : ∀ argument ∈ other.argument?, Clear name argument)
    (same : segment.written name ++ rest = other.written name ++ rest') : segment = other ∧ rest = rest' := by
  have apart (value : String) : name ++ "=" ++ value ≠ name := (name_ne_attached name value).symm
  cases segment with
  | attached value =>
    cases other with
    | attached value' => simpa [Segment.written] using same
    | pair value' => exact absurd (List.cons.inj same).1 (apart value)
    | other argument => exact absurd (List.cons.inj same).1.symm ((clear' argument rfl).2 value)
  | pair value =>
    cases other with
    | attached value' => exact absurd (List.cons.inj same).1.symm (apart value')
    | pair value' => simpa [Segment.written] using same
    | other argument => exact absurd (List.cons.inj same).1.symm (clear' argument rfl).1
  | other argument =>
    cases other with
    | attached value => exact absurd (List.cons.inj same).1 ((clear argument rfl).2 value)
    | pair value => exact absurd (List.cons.inj same).1 (clear argument rfl).1
    | other argument' => simpa [Segment.written] using same

/-- A name without a value is no segment. -/
theorem segment_ne_ending (clear : ∀ argument ∈ segment.argument?, Clear name argument) :
    segment.written name ++ rest ≠ ending name unfinished := by
  intro same
  cases unfinished with
  | false => cases segment <;> cases same
  | true =>
    cases segment with
    | attached value => exact name_ne_attached name value (List.cons.inj same).1.symm
    | pair value => cases (List.cons.inj same).2
    | other argument => exact (clear argument rfl).1 (List.cons.inj same).1

theorem ending_inj (same : ending name unfinished = ending name unfinished') : unfinished = unfinished' := by
  cases unfinished <;> cases unfinished' <;> first | rfl | cases same

namespace Reading

/-- What comes of taking the option out of the arguments. -/
def outcome (reading : Reading name arguments) : Except UsageError (Option String × List String) :=
  if reading.unfinished then .error (.missingValue name) else .ok (reading.values.getLast?, reading.others)

theorem takeOption_eq (reading : Reading name arguments) : takeOption name arguments = reading.outcome := by
  obtain ⟨segments, unfinished, clear, rfl⟩ := reading
  rw [takeOption, takeOptionFrom_written clear]
  cases unfinished with
  | true =>
    show keeping _ (takeOptionFrom name _ [name]) = _
    rw [takeOptionFrom_name]
    rfl
  | false =>
    show keeping _ (.ok (_, [])) = _
    rw [Option.or_none, keeping]
    exact congrArg Except.ok (Prod.ext rfl (List.append_nil _))

/-- A segment in front of arguments that are read already. -/
def push (reading : Reading name rest) (segment : Segment)
    (clear : ∀ argument ∈ segment.argument?, Clear name argument) :
    Reading name (segment.written name ++ rest) where
  segments := segment :: reading.segments
  unfinished := reading.unfinished
  clear := clear_cons.mpr ⟨clear, reading.clear⟩
  whole := by rw [written_cons, ← reading.whole]

theorem nonempty (name : String) (arguments : List String) : Nonempty (Reading name arguments) := by
  -- the value so far plays no part, but the recursion carries it along
  have all (value : Option String) : Nonempty (Reading name arguments) := by
    induction value, arguments using takeOptionFrom.induct name with
    | case1 => exact ⟨[], false, List.forall_mem_nil _, rfl⟩
    | case2 value argument rest attached found ih =>
      obtain ⟨reading⟩ := ih
      obtain rfl := attachedValue?_eq_some.mp found
      exact ⟨reading.push (.attached attached) nofun⟩
    | case3 => exact ⟨[], true, List.forall_mem_nil _, rfl⟩
    | case4 value following rest _ ih =>
      obtain ⟨reading⟩ := ih
      exact ⟨reading.push (.pair following) nofun⟩
    | case5 value argument rest unattached unnamed ih =>
      obtain ⟨reading⟩ := ih
      have clear : Clear name argument := ⟨unnamed, attachedValue?_eq_none.mp unattached⟩
      exact ⟨reading.push (.other argument) fun _ same => Option.some.inj same ▸ clear⟩
  exact all none

/-- The arguments are read in one way. -/
theorem unique (first second : Reading name arguments) : first = second := by
  obtain ⟨segments, unfinished, clear, rfl⟩ := first
  obtain ⟨segments', unfinished', clear', same⟩ := second
  suffices both : segments = segments' ∧ unfinished = unfinished' from Reading.ext both.1 both.2
  induction segments generalizing segments' with
  | nil =>
    cases segments' with
    | nil => exact ⟨rfl, ending_inj same⟩
    | cons segment' segments' =>
      rw [written_cons] at same
      exact absurd same.symm (segment_ne_ending (clear_cons.mp clear').1)
  | cons segment segments ih =>
    obtain ⟨here, later⟩ := clear_cons.mp clear
    rw [written_cons] at same
    cases segments' with
    | nil => exact absurd same (segment_ne_ending here)
    | cons segment' segments' =>
      obtain ⟨here', later'⟩ := clear_cons.mp clear'
      rw [written_cons] at same
      obtain ⟨rfl, rest⟩ := segment_inj here here' same
      obtain ⟨rfl, rfl⟩ := ih later segments' later' rest
      exact ⟨rfl, rfl⟩

/-- What is left is read argument by argument. -/
def rereading (reading : Reading name arguments) : Reading name reading.others where
  segments := reading.others.map .other
  unfinished := false
  clear := by
    rw [List.filterMap_map]
    exact (List.filterMap_some : reading.others.filterMap some = reading.others).symm ▸ reading.clear
  whole := by
    rw [written, List.flatMap_map]
    exact ((List.append_nil _).trans (List.flatMap_singleton' reading.others)).symm

theorem rereading_outcome (reading : Reading name arguments) :
    reading.rereading.outcome = .ok (none, reading.others) := by
  have values : reading.rereading.values = [] := by
    rw [Reading.values, rereading, List.filterMap_map]
    exact List.filterMap_eq_nil_iff.mpr fun _ _ => rfl
  have others : reading.rereading.others = reading.others := by
    rw [Reading.others, rereading, List.filterMap_map]
    exact List.filterMap_some
  show Except.ok (reading.rereading.values.getLast?, reading.rereading.others) = _
  rw [values, others]
  rfl

/-- The arguments with one of the values behind an equals sign. -/
def attach (reading : Reading name arguments) {front back : List Segment} {value : String}
    (split : reading.segments = front ++ .pair value :: back) :
    Reading name (written name (front ++ .attached value :: back) ++ ending name reading.unfinished) where
  segments := front ++ .attached value :: back
  unfinished := reading.unfinished
  clear := by
    have clear := reading.clear
    rw [split, List.filterMap_append] at clear
    rwa [List.filterMap_append]
  whole := rfl

theorem attach_outcome (reading : Reading name arguments) {front back : List Segment} {value : String}
    (split : reading.segments = front ++ .pair value :: back) : (reading.attach split).outcome = reading.outcome := by
  simp only [outcome, values, others, attach, split, List.filterMap_append]
  rfl

end Reading

/-- The arguments fall into segments in one way, whatever the name is and whatever the values look like. Taking out the
option fails if its name is at the end without a value. Otherwise the last value counts and all other arguments are
left, among which the option is not found again. It never matters in which of its two forms the option has a value. -/
theorem options_settle (name : String) (arguments : List String) :
    ∃ reading : Reading name arguments, (∀ other : Reading name arguments, other = reading) ∧
      (reading.unfinished = true → takeOption name arguments = .error (.missingValue name)) ∧
      (reading.unfinished = false → takeOption name arguments = .ok (reading.values.getLast?, reading.others)) ∧
      takeOption name reading.others = .ok (none, reading.others) ∧
      ∀ front value back, reading.segments = front ++ .pair value :: back →
        takeOption name (written name front ++ (name ++ "=" ++ value) ::
          (written name back ++ ending name reading.unfinished)) = takeOption name arguments := by
  obtain ⟨reading⟩ := Reading.nonempty name arguments
  refine ⟨reading, fun other => other.unique reading, fun unfinished => ?_, fun finished => ?_, ?_,
    fun front value back split => ?_⟩
  · rw [reading.takeOption_eq, Reading.outcome, if_pos unfinished]
  · rw [reading.takeOption_eq, Reading.outcome, finished]
    rfl
  · rw [reading.rereading.takeOption_eq, reading.rereading_outcome]
  · rw [reading.takeOption_eq, ← reading.attach_outcome split, ← (reading.attach split).takeOption_eq]
    simp [written, Segment.written]

example : takeOption "-w" ["-w", "-w", "-w=log", "in", "-w", "-w=log"] = .ok (some "-w=log", ["in"]) := by
  rfl

end Transducer.Arguments
