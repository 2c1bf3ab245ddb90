import Mathlib.Algebra.BigOperators.Group.List.Basic
import Transducer.Proofs.LegibleWeights
import Transducer.Proofs.ListingRoundTrip
import Transducer.Proofs.SortingTool

/-! Listings that are compiled, printed and compiled again. A graph that was read from a listing has no state that a
listing could not tell of, and it begins with a state that its first line speaks of, so all of it is printed and
comes back. Its states come back in the order in which the printed lines name them, which can be another. -/

namespace Transducer

variable {W : Type} {tables : LabelTables} {lines : List (Line W)} {line : Line W} {graph back : Graph W}
  {name s : StateId}

namespace Line

theorem readState_lt {field : List Char} (taken : readState field = .ok s) : s < UInt32.size := by
  unfold readState at taken
  split at taken
  next state found =>
    cases taken
    exact state.toNat_lt
  next => cases taken

theorem readLabel_named {table : Option Symbols} {field : List Char} {label : Label}
    (paired : ∀ symbols ∈ table, symbols.Paired) (taken : readLabel table field = .ok label) :
    Transducer.Named table label := by
  rintro symbols rfl
  simp only [readLabel] at taken
  split at taken
  next found =>
    cases taken
    rw [(paired symbols rfl label _).mpr found]
    exact Option.some_ne_none _
  next => cases taken

theorem readFinal_writable {state : List Char} {weight : Except LineError W}
    (taken : readFinal state weight = .ok line) : line.Writable tables := by
  simp only [readFinal, except_bind_ok] at taken
  obtain ⟨s, state, weight, -, ⟨⟩⟩ := taken
  exact ⟨trivial, List.forall_mem_singleton.mpr (readState_lt state)⟩

theorem readArc_writable (read : tables.Read) {source target input output : List Char} {weight : Except LineError W}
    (taken : readArc tables source target input output weight = .ok line) : line.Writable tables := by
  have paired := read.holds Symbols.ofText_paired
  simp only [readArc, except_bind_ok] at taken
  obtain ⟨s, source, t, target, i, input, o, output, weight, -, ⟨⟩⟩ := taken
  refine ⟨⟨readLabel_named paired.1 input, readLabel_named paired.2 output⟩, ?_⟩
  exact List.forall_mem_cons.mpr ⟨readState_lt source, List.forall_mem_singleton.mpr (readState_lt target)⟩

/-- What is read from a line can be written again. -/
theorem ofFields_writable [Weight W] (read : tables.Read) {fields : List (List Char)}
    (taken : ofFields tables fields = .ok line) : line.Writable tables := by
  unfold ofFields at taken
  split at taken
  next =>
    cases taken
    exact ⟨trivial, List.forall_mem_nil _⟩
  next => exact readFinal_writable taken
  next => exact readFinal_writable taken
  next => exact readArc_writable read taken
  next => exact readArc_writable read taken
  next => cases taken

end Line

theorem length_mentioned_le {bound : Nat} (small : ∀ line ∈ lines, ∀ s ∈ line.names, s < bound) :
    (mentioned lines).length ≤ bound := by
  have inside : mentioned lines ⊆ List.range bound := fun s member => by
    obtain ⟨line, listed, named⟩ := mem_mentioned.mp member
    exact List.mem_range.mpr (small line listed s named)
  have fits := (List.subperm_of_subset (nodup_eraseDups _) inside).length_le
  rwa [List.length_range] at fits

namespace Graph

theorem size_ofLines (lines : List (Line W)) : (ofLines lines).size = (mentioned lines).length := by
  simp [ofLines, size]

theorem exists_name (known : s < (ofLines lines).size) : ∃ name, (mentioned lines)[s]? = some name :=
  ⟨_, List.getElem?_eq_getElem (size_ofLines lines ▸ known)⟩

theorem arcsFrom_ofLines (found : (mentioned lines)[s]? = some name) :
    (ofLines lines).arcsFrom s = lines.filterMap (Line.arcOf? (mentioned lines).idxOf name) :=
  arcsFrom_of_getElem? (ofLines_getElem? found)

theorem finalOf_ofLines (found : (mentioned lines)[s]? = some name) :
    (ofLines lines).finalOf s = (lines.filterMap (Line.finalOf? name)).getLast? :=
  finalOf_of_getElem? (ofLines_getElem? found)

/-- A line gives something to the first state that it names. -/
theorem not_bare_ofLines (found : (mentioned lines)[s]? = some name) (member : line ∈ lines)
    (head : line.names.head? = some name) : ¬ (ofLines lines).Bare s := by
  intro bare
  cases line with
  | blank => cases head
  | final state weight =>
    cases head
    have silent := bare.2
    rw [finalOf_ofLines found, List.getLast?_eq_none_iff, List.filterMap_eq_nil_iff] at silent
    simpa [Line.finalOf?] using silent _ member
  | arc source target input output weight =>
    cases head
    have silent := bare.1
    rw [arcsFrom_ofLines found, List.filterMap_eq_nil_iff] at silent
    simpa [Line.arcOf?] using silent _ member

theorem occurs_ofLines (known : s < (ofLines lines).size) : (ofLines lines).Occurs s := by
  obtain ⟨name, found⟩ := exists_name known
  obtain ⟨line, member, named⟩ := mem_mentioned.mp (List.mem_of_getElem? found)
  cases line with
  | blank => cases named
  | final state weight =>
    obtain rfl := List.mem_singleton.mp named
    exact .inl (not_bare_ofLines found member rfl)
  | arc source target input output weight =>
    rcases List.mem_pair.mp named with rfl | rfl
    · exact .inl (not_bare_ofLines found member rfl)
    · have origin : source ∈ mentioned lines := mem_mentioned.mpr ⟨_, member, List.mem_cons_self⟩
      obtain ⟨inside, rfl⟩ := List.getElem?_eq_some_iff.mp found
      have place : (mentioned lines).idxOf (mentioned lines)[s] = s := (nodup_eraseDups _).idxOf_getElem s inside
      refine .inr ⟨(mentioned lines).idxOf source, ⟨input, output, weight, _⟩, ?_, place⟩
      rw [arcsFrom_ofLines (List.getElem?_idxOf origin)]
      exact List.mem_filterMap.mpr ⟨_, member, if_pos rfl⟩

theorem named_ofLines (named : ∀ line ∈ lines, line.Named tables) : (ofLines lines).Named tables := by
  intro s arc leaves
  have known : s < (ofLines lines).size := by
    by_contra outside
    rw [arcsFrom_of_size_le _ (Nat.le_of_not_lt outside)] at leaves
    cases leaves
  obtain ⟨name, found⟩ := exists_name known
  rw [arcsFrom_ofLines found] at leaves
  obtain ⟨line, member, given⟩ := List.mem_filterMap.mp leaves
  cases line with
  | arc source target input output weight =>
    obtain ⟨-, same⟩ := Option.ite_none_right_eq_some.mp given
    cases same
    exact named _ member
  | _ => cases given

theorem start_ofLines (lines : List (Line W)) :
    ofLines lines = empty ∨ (ofLines lines).start = some 0 ∧ ¬ (ofLines lines).Bare 0 := by
  cases first : (mentioned lines).head? with
  | none =>
    have none : mentioned lines = [] := List.head?_eq_none_iff.mp first
    refine .inl ?_
    rw [ofLines, none]
    rfl
  | some name =>
    refine .inr ⟨by rw [ofLines, first]; rfl, ?_⟩
    have found : (mentioned lines)[0]? = some name := List.head?_eq_getElem?.symm.trans first
    rw [mentioned, head?_eraseDups, List.head?_flatMap] at first
    obtain ⟨line, member, head⟩ := List.exists_of_findSome?_eq_some first
    exact not_bare_ofLines found member head

/-- All of the graph can be told by a listing. -/
structure Tellable (tables : LabelTables) (graph : Graph W) : Prop where
  formed : graph.WellFormed
  named : graph.Named tables
  small : graph.size ≤ UInt32.size
  occurs : ∀ s < graph.size, graph.Occurs s
  start : graph = empty ∨ graph.start = some 0 ∧ ¬ graph.Bare 0

/-- Whatever a listing describes can be told by another. -/
theorem ofListing_tellable [Weight W] (read : tables.Read) {text : List Char}
    (compiled : ofListing tables text = .ok graph) : graph.Tellable tables := by
  obtain ⟨lines, taken, rfl⟩ := ofListing_ok.mp compiled
  have each : List.Forall₂ (fun line _ => line.Writable tables ∧ True) lines (Text.lines text) :=
    taken.flip.imp fun line text given => ⟨Line.ofFields_writable read given, trivial⟩
  have writable : ∀ line ∈ lines, line.Writable tables := ((List.forall₂_and_left _ _).mp each).1
  constructor
  case formed => exact ofLines_wellFormed lines
  case named => exact named_ofLines fun line member => (writable line member).named
  case small => exact size_ofLines lines ▸ length_mentioned_le fun line member => (writable line member).small
  case occurs => exact fun s => occurs_ofLines
  case start => exact start_ofLines lines

/-- The other graph is the graph with its states at other places and with weights that count as the same. -/
structure Isomorphic (same : W → W → Prop) (graph : Graph W) (place : StateId → StateId) (other : Graph W) : Prop where
  sized : other.size = graph.size
  bijective : Set.BijOn place (Set.Iio graph.size) (Set.Iio graph.size)
  start : other.start = graph.start.map place
  arcs : ∀ s < graph.size, List.Forall₂ (fun arc moved =>
    moved.input = arc.input ∧ moved.output = arc.output ∧ same arc.weight moved.weight ∧
      moved.target = place arc.target) (graph.arcsFrom s) (other.arcsFrom (place s))
  finals : ∀ s < graph.size, Option.Rel same (graph.finalOf s) (other.finalOf (place s))

variable {same same' : W → W → Prop} {place : StateId → StateId} {order : List StateId}

theorem Isomorphic.weaken (isomorphic : graph.Isomorphic same place back) (weaker : ∀ v w, same v w → same' v w) :
    graph.Isomorphic same' place back where
  sized := isomorphic.sized
  bijective := isomorphic.bijective
  start := isomorphic.start
  arcs s known := (isomorphic.arcs s known).imp fun _ _ ⟨input, output, weight, target⟩ =>
    ⟨input, output, weaker _ _ weight, target⟩
  finals s known := by
    have kept := isomorphic.finals s known
    generalize graph.finalOf s = before, back.finalOf (place s) = after at kept ⊢
    cases kept with
    | some weight => exact .some (weaker _ _ weight)
    | none => exact .none

theorem Isomorphic.totalArcs (isomorphic : graph.Isomorphic same place back) :
    back.totalArcs = graph.totalArcs := by
  have moved : ((List.range graph.size).map place).Perm (List.range graph.size) := by
    have distinct : ((List.range graph.size).map place).Nodup :=
      List.nodup_range.map_on fun s first t second =>
        isomorphic.bijective.injOn (List.mem_range.mp first) (List.mem_range.mp second)
    have inside : (List.range graph.size).map place ⊆ List.range graph.size := by
      intro t member
      obtain ⟨s, known, rfl⟩ := List.mem_map.mp member
      exact List.mem_range.mpr (isomorphic.bijective.mapsTo (List.mem_range.mp known))
    exact (List.subperm_of_subset distinct inside).perm_of_length_le (by simp)
  have each : ((List.range graph.size).map place).map (fun s => (back.arcsFrom s).length) =
      (List.range graph.size).map fun s => (graph.arcsFrom s).length := by
    rw [List.map_map]
    exact List.map_congr_left fun s known => (isomorphic.arcs s (List.mem_range.mp known)).length_eq.symm
  rw [totalArcs_eq, totalArcs_eq, isomorphic.sized, ← each]
  exact (moved.map _).sum_eq.symm

/-- Where every state occurs nothing is cut, and the states only change places. -/
theorem Restores.isomorphic [Weight W] (restores : Restores same graph order back) (formed : graph.WellFormed)
    (occurs : ∀ s < graph.size, graph.Occurs s) : graph.Isomorphic (Kept same) order.idxOf back := by
  have member {s : StateId} : s ∈ order ↔ s < graph.size :=
    (restores.member s).trans ⟨fun given => given.lt formed, occurs s⟩
  have length : order.length = graph.size := by
    have all : order.Perm (List.range graph.size) :=
      (List.perm_ext_iff_of_nodup restores.distinct List.nodup_range).mpr fun s => member.trans List.mem_range.symm
    simpa using all.length_eq
  have found {s : StateId} (known : s < graph.size) : order[order.idxOf s]? = some s :=
    List.getElem?_idxOf (member.mpr known)
  have placed {i s : StateId} (given : order[i]? = some s) : order.idxOf s = i := by
    obtain ⟨inside, rfl⟩ := List.getElem?_eq_some_iff.mp given
    exact restores.distinct.idxOf_getElem i inside
  constructor
  case sized => exact restores.sized.trans length
  case bijective =>
    refine ⟨fun s known => ?_, fun s known t _ same => ?_, fun i known => ?_⟩
    · exact length ▸ List.idxOf_lt_length_of_mem (member.mpr known)
    · exact (List.idxOf_inj (member.mpr known)).mp same
    · have inside : i < order.length := length.symm ▸ known
      exact ⟨order[i], member.mp (List.getElem_mem inside), restores.distinct.idxOf_getElem i inside⟩
  case start =>
    rw [restores.start]
    cases first : order.head? with
    | some s =>
      rw [restores.first s first, Option.map_some, Option.map_some, placed (List.head?_eq_getElem? ▸ first)]
    | none =>
      have bare : order = [] := List.head?_eq_none_iff.mp first
      cases begins : graph.start with
      | none => rfl
      | some s =>
        have known := member.mpr (formed.start s begins)
        rw [bare] at known
        cases known
  case arcs =>
    intro s known
    refine (restores.arcs _ s (found known)).imp fun arc moved given => ?_
    obtain ⟨input, output, weight, target⟩ := given
    exact ⟨input, output, weight, (placed target).symm⟩
  case finals => exact fun s known => restores.finals _ s (found known)

/-- What can be told by a listing is printed and comes back, with its start at the same place. -/
theorem Tellable.returns [Weight W] (legible : Weight.Legible W same) (read : tables.Read)
    (tellable : graph.Tellable tables) : ∃ text back place, graph.toListing tables = .ok text ∧
      ofListing tables text = .ok back ∧ graph.Isomorphic (Kept same) place back ∧ place 0 = 0 := by
  rcases tellable.start with rfl | ⟨begins, speaks⟩
  · refine ⟨[], empty, id, rfl, rfl, ⟨rfl, Set.bijOn_id _, rfl, ?_, ?_⟩, rfl⟩
    · exact fun s known => absurd known (Nat.not_lt_zero s)
    · exact fun s known => absurd known (Nat.not_lt_zero s)
  · have shown : ¬ graph.Hidden 0 := fun hidden => speaks hidden.1
    have inside := tellable.formed.start 0 begins
    have writable := tellable.named.writable tellable.formed tellable.small inside
    have restores := ofLines_restores legible tellable.formed begins shown
    refine ⟨_, _, _, (toListing_cases tables tellable.formed begins).2.2 tellable.named shown,
      ofListing_textOf legible read writable, restores.isomorphic tellable.formed tellable.occurs, ?_⟩
    have named := (restores.member 0).mpr (.inl speaks)
    obtain ⟨s, first⟩ := Option.ne_none_iff_exists'.mp (mt List.head?_eq_none_iff.mp (List.ne_nil_of_mem named))
    obtain rfl : s = 0 := Option.some.inj ((restores.first s first).symm.trans begins)
    obtain ⟨rest, whole⟩ := List.head?_eq_some_iff.mp first
    rw [whole, List.idxOf_cons_self]

end Graph

theorem BuiltIn.alike_of_kept {type : BuiltIn} {before after : type.Carrier}
    (kept : Graph.Kept type.Alike before after) : type.Alike before after := by
  unfold Graph.Kept at kept
  split at kept
  next one => exact kept ▸ alike_of_equal one
  next => exact kept

namespace TypedGraph

variable {name : String} {text source : List Char} {typed : TypedGraph}

theorem ofListing_ok : ofListing name tables text = .ok typed ↔
    BuiltIn.ofName? name = some typed.type ∧ Graph.ofListing tables text = .ok typed.graph := by
  unfold ofListing
  constructor
  · intro given
    split at given
    next type known =>
      obtain ⟨graph, taken, ⟨⟩⟩ := except_bind_ok.mp given
      exact ⟨known, mapError_ok.mp taken⟩
    next => cases given
  · intro given
    obtain ⟨known, read⟩ := given
    rw [known]
    exact except_bind_ok.mpr ⟨typed.graph, mapError_ok.mpr read, rfl⟩

/-- A listing that is compiled is stored and read as the same graph, if it fits, and it is printed under the same
tables. What is compiled from the printed text is the graph again but for the places of its states. -/
theorem compiled_returns (read : tables.Read) (compiled : ofListing name tables source = .ok typed) :
    (typed.graph.Storable → ∃ bytes, typed.encode = .ok bytes ∧ decode bytes = .ok typed) ∧
    ∃ text back place, typed.toListing tables = .ok text ∧ ofListing name tables text = .ok ⟨typed.type, back⟩ ∧
      typed.graph.Isomorphic typed.type.Alike place back ∧ back.totalArcs = typed.graph.totalArcs ∧
      (typed.graph.size ≠ 0 → typed.graph.start = some 0 ∧ back.start = some 0 ∧ place 0 = 0) := by
  obtain ⟨known, graph⟩ := ofListing_ok.mp compiled
  have tellable := Graph.ofListing_tellable read graph
  constructor
  · intro storable
    obtain ⟨encoded, -, -⟩ := Graph.written_reads typed.type.nameable tellable.formed storable
    exact ⟨_, encoded, decode_written typed tellable.formed storable⟩
  · obtain ⟨text, back, place, printed, again, isomorphic, fixed⟩ := tellable.returns typed.type.legible read
    have alike := isomorphic.weaken fun _ _ => BuiltIn.alike_of_kept
    refine ⟨text, back, place, printed, ofListing_ok.mpr ⟨known, again⟩, alike, alike.totalArcs, fun some => ?_⟩
    rcases tellable.start with none | ⟨begins, -⟩
    · exact absurd (none ▸ rfl) some
    · refine ⟨begins, ?_, fixed⟩
      rw [alike.start, begins, Option.map_some, fixed]

/-- One symbol for the labels that arcs take in, and none for those that they give out. -/
def letters : LabelTables := { input := some (Symbols.empty.bind "a" 1) }

/-- The last state that is named here has no line, and the listing that is printed names it before another. One
weight is no number and one is the negative zero. -/
def detour : List Char := "5 9 a 2\n7 8 a 4 BadNumber\n5 8 a 3\n9 -0\n".toList

theorem detour_returns : ∃ typed, ofListing "tropical" letters detour = .ok typed ∧ typed.graph.size = 4 ∧
    (∃ bytes, typed.encode = .ok bytes ∧ decode bytes = .ok typed) ∧
    ∃ text back place, typed.toListing letters = .ok text ∧ ofListing "tropical" letters text = .ok ⟨typed.type, back⟩ ∧
      typed.graph.Isomorphic typed.type.Alike place back ∧ back.totalArcs = 3 ∧ back.start = some 0 ∧ place 0 = 0 := by
  let lines : List (Line (Tropical .single)) := [.arc 5 9 1 2 ⟨.zero⟩, .arc 7 8 1 4 ⟨.nan⟩, .arc 5 8 1 3 ⟨.zero⟩,
    .final 9 ⟨Floating.zero.neg⟩]
  have read : letters.Read := by
    rintro symbols (given | given)
    · exact ⟨"a 1".toList, congrArg Except.ok (Option.some.inj given)⟩
    · cases given
  have label : Line.readLabel letters.input ['a'] = .ok 1 := by
    simp [Line.readLabel, letters, Symbols.findLabel?, Symbols.bind]
  have taken : List.Forall₂ (fun text line => Line.ofFields letters (Text.fields text) = .ok line)
      (Text.lines detour) lines := by
    refine .cons ?_ (.cons ?_ (.cons ?_ (.cons rfl .nil)))
    · change Line.readArc letters ['5'] ['9'] ['a'] ['2'] (.ok Weight.one) = _
      rw [Line.readArc, label]
      rfl
    · change Line.readArc letters ['7'] ['8'] ['a'] ['4'] (Line.readWeight "BadNumber".toList) = _
      rw [Line.readArc, label]
      rfl
    · change Line.readArc letters ['5'] ['8'] ['a'] ['3'] (.ok Weight.one) = _
      rw [Line.readArc, label]
      rfl
  have compiled : ofListing "tropical" letters detour = .ok ⟨.tropical .single, .ofLines lines⟩ :=
    ofListing_ok.mpr ⟨by decide, Graph.ofListing_ok.mpr ⟨lines, taken, rfl⟩⟩
  have few : ∀ state ∈ (Graph.ofLines lines).states, state.arcs.size < 2 ^ 32 := by decide +kernel
  have storable : (Graph.ofLines lines).Storable :=
    ⟨by decide, fun state member => ⟨fun _ _ => trivial, few state member, fun _ _ => trivial⟩⟩
  obtain ⟨stored, text, back, place, printed, again, isomorphic, arcs, start⟩ := compiled_returns read compiled
  obtain ⟨-, begins, fixed⟩ := start (by decide)
  have total : (Graph.ofLines lines).totalArcs = 3 := by decide +kernel
  exact ⟨_, compiled, rfl, stored storable, text, back, place, printed, again, isomorphic, arcs.trans total, begins,
    fixed⟩

end TypedGraph

end Transducer
