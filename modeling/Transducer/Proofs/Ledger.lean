import Mathlib.Data.List.Basic
import Transducer.Proofs.Calls

/-! A graph seen from outside its numbering. Every state gets a tag when it is added and keeps it for
good, and all that happens to states and arcs is written down under tags. Entries are only ever added:
what is deleted is listed as deleted, and a state or an arc is there as long as no list names it. -/

namespace Transducer

abbrev Tag := Nat

/-- A graph whose start, final weights and arcs are known by tags. -/
@[ext]
structure Tagged (W : Type) where
  start : Option Tag
  final : Tag → Option W
  arcs : Tag → List (Arc W)

structure Ledger (W : Type) where
  /-- The tags given so far are the numbers below this one. -/
  created : Nat := 0
  /-- Every arc ever added with the tag of its source, in the order of addition. -/
  inserted : List (Tag × Arc W) := []
  deleted : List Tag := []
  /-- The positions of arcs that were deleted by name, in the list of all arcs. -/
  struck : List Nat := []
  chosen : Option Tag := none
  finals : Tag → Option W := fun _ => none

namespace Ledger

variable {W : Type}

def Alive (ledger : Ledger W) (t : Tag) : Prop := t < ledger.created ∧ t ∉ ledger.deleted

instance (ledger : Ledger W) (t : Tag) : Decidable (ledger.Alive t) := inferInstanceAs (Decidable (_ ∧ _))

/-- The arcs of a state that are still there, each with its position in the list of all arcs. -/
def entries (ledger : Ledger W) (t : Tag) : List (Nat × Arc W) :=
  (ledger.inserted.zipIdx.filter fun ((source, arc), entry) =>
    source = t ∧ ledger.Alive arc.target ∧ entry ∉ ledger.struck).map fun ((_, arc), entry) => (entry, arc)

def graph (ledger : Ledger W) : Tagged W where
  start := ledger.chosen.filter fun t => ledger.Alive t
  final t := if ledger.Alive t then ledger.finals t else none
  arcs t := if ledger.Alive t then (ledger.entries t).map Prod.snd else []

def create (ledger : Ledger W) : Ledger W := { ledger with created := ledger.created + 1 }

def insert (ledger : Ledger W) (source : Tag) (arc : Arc W) : Ledger W :=
  { ledger with inserted := ledger.inserted ++ [(source, arc)] }

def choose (ledger : Ledger W) (t : Tag) : Ledger W := { ledger with chosen := some t }

def setFinal (ledger : Ledger W) (final : Option W) (t : Tag) : Ledger W :=
  { ledger with finals := fun other => if other = t then final else ledger.finals other }

def delete (ledger : Ledger W) (doomed : List Tag) : Ledger W :=
  { ledger with deleted := ledger.deleted ++ doomed }

def strike (ledger : Ledger W) (named : List (Nat × Arc W)) : Ledger W :=
  { ledger with struck := ledger.struck ++ named.map Prod.fst }

/-- The numbers in the ledger are those of tags that were given and of arcs that were added. -/
structure Sound (ledger : Ledger W) : Prop where
  source : ∀ entry ∈ ledger.inserted, entry.1 < ledger.created
  target : ∀ entry ∈ ledger.inserted, entry.2.target < ledger.created
  deleted : ∀ t ∈ ledger.deleted, t < ledger.created
  struck : ∀ entry ∈ ledger.struck, entry < ledger.inserted.length
  chosen : ∀ t ∈ ledger.chosen, t < ledger.created
  finals : ∀ t, ledger.created ≤ t → ledger.finals t = none

variable {ledger later : Ledger W} {t : Tag}

theorem mem_entries {entry : Nat} {arc : Arc W} : (entry, arc) ∈ ledger.entries t ↔
    ledger.inserted[entry]? = some (t, arc) ∧ ledger.Alive arc.target ∧ entry ∉ ledger.struck := by
  simp only [entries, List.mem_map, List.mem_filter, Prod.exists, Prod.mk.injEq, decide_eq_true_eq,
    List.mem_zipIdx_iff_getElem?]
  constructor
  · intro given
    obtain ⟨source, arc', entry', ⟨found, rfl, alive, kept⟩, rfl, rfl⟩ := given
    exact ⟨found, alive, kept⟩
  · intro given
    obtain ⟨found, alive, kept⟩ := given
    exact ⟨t, arc, entry, ⟨found, rfl, alive, kept⟩, rfl, rfl⟩

theorem nodup_entries (ledger : Ledger W) (t : Tag) : ((ledger.entries t).map Prod.fst).Nodup := by
  have positions : ledger.inserted.zipIdx.map Prod.snd = List.range' 0 ledger.inserted.length :=
    List.zipIdx_map_snd 0 ledger.inserted
  have listed : ((ledger.entries t).map Prod.fst).Sublist (ledger.inserted.zipIdx.map Prod.snd) := by
    rw [entries, List.map_map]
    exact List.filter_sublist.map Prod.snd
  exact listed.nodup (positions ▸ List.nodup_range')

theorem start_congr (chosen : later.chosen = ledger.chosen)
    (alive : ∀ t ∈ ledger.chosen, later.Alive t ↔ ledger.Alive t) : later.graph.start = ledger.graph.start := by
  rw [graph, graph, chosen]
  cases start : ledger.chosen with
  | none => rfl
  | some t => simp [Option.filter_some, alive t start]

theorem entries_congr (inserted : later.inserted = ledger.inserted) (struck : later.struck = ledger.struck)
    (alive : ∀ entry ∈ ledger.inserted, later.Alive entry.2.target ↔ ledger.Alive entry.2.target) :
    later.entries t = ledger.entries t := by
  rw [entries, entries, inserted, struck]
  congr 1
  apply List.filter_congr
  intro ((source, arc), entry) member
  have same := alive (source, arc) (List.fst_mem_of_mem_zipIdx member)
  simp only [same]

theorem alive_delete (ledger : Ledger W) (doomed : List Tag) (t : Tag) :
    (ledger.delete doomed).Alive t ↔ ledger.Alive t ∧ t ∉ doomed := by
  simp [Alive, delete, and_assoc]

theorem start_delete (ledger : Ledger W) (doomed : List Tag) :
    (ledger.delete doomed).graph.start = ledger.graph.start.filter (· ∉ doomed) := by
  simp only [graph, alive_delete, Option.filter_filter, Bool.decide_and]
  rfl

theorem entries_delete (ledger : Ledger W) (doomed : List Tag) (t : Tag) :
    (ledger.delete doomed).entries t = (ledger.entries t).filter fun entry => entry.2.target ∉ doomed := by
  rw [entries, entries, List.filter_map, List.filter_filter]
  congr 1
  apply List.filter_congr
  intro ((source, arc), entry) member
  simp only [alive_delete, Function.comp_apply, ← Bool.decide_and, decide_eq_decide]
  exact ⟨fun ⟨same, ⟨alive, kept⟩, unstruck⟩ => ⟨kept, same, alive, unstruck⟩,
    fun ⟨kept, same, alive, unstruck⟩ => ⟨same, ⟨alive, kept⟩, unstruck⟩⟩

theorem entries_strike (ledger : Ledger W) (named : List (Nat × Arc W)) (t : Tag) :
    (ledger.strike named).entries t = (ledger.entries t).filter fun entry => entry.1 ∉ named.map Prod.fst := by
  rw [entries, entries, List.filter_map, List.filter_filter]
  congr 1
  apply List.filter_congr
  intro ((source, arc), entry) member
  simp only [strike, List.mem_append, not_or, Function.comp_apply, ← Bool.decide_and, decide_eq_decide]
  exact ⟨fun ⟨same, alive, unstruck, kept⟩ => ⟨kept, same, alive, unstruck⟩,
    fun ⟨kept, same, alive, unstruck⟩ => ⟨same, alive, unstruck, kept⟩⟩

/-- Arcs of other states do not bear the names of these. -/
theorem entries_strike_other {u : Tag} (other : u ≠ t) {named : List (Nat × Arc W)}
    (inside : ∀ entry ∈ named, entry ∈ ledger.entries t) : (ledger.strike named).entries u = ledger.entries u := by
  rw [entries_strike, List.filter_eq_self]
  rintro ⟨entry, arc⟩ member
  have found := (mem_entries.mp member).1
  simp only [List.mem_map, Prod.exists, exists_and_right, exists_eq_right, decide_eq_true_eq, not_exists]
  intro arc' listed
  have found' := (mem_entries.mp (inside _ listed)).1
  exact other (Prod.mk.inj (Option.some.inj (found.symm.trans found'))).1

theorem entries_insert (sound : ledger.Sound) {source : Tag} {arc : Arc W} (alive : ledger.Alive arc.target) :
    (ledger.insert source arc).entries t =
      ledger.entries t ++ if source = t then [(ledger.inserted.length, arc)] else [] := by
  have unstruck : ledger.inserted.length ∉ ledger.struck := fun member =>
    Nat.lt_irrefl _ (sound.struck _ member)
  rw [entries, insert, List.zipIdx_append, List.filter_append, List.map_append, List.zipIdx_singleton]
  congr 1
  by_cases same : source = t
  · rw [if_pos same, List.filter_cons_of_pos (by simpa using ⟨same, alive, unstruck⟩)]
    simp
  · rw [if_neg same, List.filter_cons_of_neg (by simp [same])]
    rfl

theorem alive_create (older : t < ledger.created) : ledger.create.Alive t ↔ ledger.Alive t := by
  simp [Alive, create, older, Nat.lt_succ_of_lt older]

theorem entries_create (sound : ledger.Sound) : ledger.create.entries t = ledger.entries t :=
  entries_congr rfl rfl fun entry member => alive_create (sound.target entry member)

theorem start_create (sound : ledger.Sound) : ledger.create.graph.start = ledger.graph.start :=
  start_congr rfl fun t member => alive_create (sound.chosen t member)

/-- The next tag has no arcs yet. -/
theorem entries_created (sound : ledger.Sound) : ledger.entries ledger.created = [] := by
  rw [List.eq_nil_iff_forall_not_mem]
  intro entry member
  have added := List.mem_of_getElem? (mem_entries.mp member).1
  exact Nat.lt_irrefl _ (sound.source _ added)

namespace Sound

theorem create (sound : ledger.Sound) : ledger.create.Sound where
  source entry member := Nat.lt_succ_of_lt (sound.source entry member)
  target entry member := Nat.lt_succ_of_lt (sound.target entry member)
  deleted t member := Nat.lt_succ_of_lt (sound.deleted t member)
  struck := sound.struck
  chosen t member := Nat.lt_succ_of_lt (sound.chosen t member)
  finals t outside := sound.finals t (Nat.le_of_succ_le outside)

theorem insert (sound : ledger.Sound) {arc : Arc W} (source : t < ledger.created)
    (target : arc.target < ledger.created) : (ledger.insert t arc).Sound := by
  refine ⟨?_, ?_, sound.deleted, ?_, sound.chosen, sound.finals⟩
  · simpa [Ledger.insert, or_imp, forall_and] using ⟨fun source arc => sound.source (source, arc), source⟩
  · simpa [Ledger.insert, or_imp, forall_and] using ⟨fun source arc => sound.target (source, arc), target⟩
  · intro entry struck
    simpa [Ledger.insert] using Nat.lt_succ_of_lt (sound.struck entry struck)

theorem choose (sound : ledger.Sound) (known : t < ledger.created) : (ledger.choose t).Sound := by
  refine ⟨sound.source, sound.target, sound.deleted, sound.struck, ?_, sound.finals⟩
  intro u equal
  cases equal
  exact known

theorem setFinal (sound : ledger.Sound) (final : Option W) (known : t < ledger.created) :
    (ledger.setFinal final t).Sound := by
  refine ⟨sound.source, sound.target, sound.deleted, sound.struck, sound.chosen, ?_⟩
  intro u fresh
  have other : u ≠ t := fun same => Nat.not_lt.mpr (same ▸ fresh) known
  simp [Ledger.setFinal, other, sound.finals u fresh]

theorem delete (sound : ledger.Sound) {doomed : List Tag} (known : ∀ t ∈ doomed, t < ledger.created) :
    (ledger.delete doomed).Sound := by
  refine ⟨sound.source, sound.target, ?_, sound.struck, sound.chosen, sound.finals⟩
  intro u member
  cases List.mem_append.mp member with
  | inl before => exact sound.deleted u before
  | inr now => exact known u now

theorem strike (sound : ledger.Sound) {named : List (Nat × Arc W)}
    (inside : ∀ entry ∈ named, entry ∈ ledger.entries t) : (ledger.strike named).Sound := by
  refine ⟨sound.source, sound.target, sound.deleted, ?_, sound.chosen, sound.finals⟩
  intro entry struck
  cases List.mem_append.mp struck with
  | inl before => exact sound.struck entry before
  | inr now =>
    obtain ⟨⟨entry, arc⟩, listed, rfl⟩ := List.mem_map.mp now
    exact (List.getElem?_eq_some_iff.mp (mem_entries.mp (inside _ listed)).1).1

end Sound

end Ledger

/-- A ledger with the tags of the states that are there, by position. -/
structure Book (W : Type) where
  names : List Tag := []
  ledger : Ledger W := {}

namespace Book

variable {W : Type}

/-- Writes down a change to the state at a position, if there is one. -/
def write (book : Book W) (s : StateId) (change : Ledger W → Tag → Ledger W) : Book W :=
  match book.names[s]? with
  | some t => { book with ledger := change book.ledger t }
  | none => book

def addState (book : Book W) : Book W := { names := book.names ++ [book.ledger.created], ledger := book.ledger.create }

def addArc (book : Book W) (source : StateId) (arc : Arc W) : Book W :=
  match book.names[arc.target]? with
  | some target => book.write source fun ledger t => ledger.insert t { arc with target }
  | none => book

/-- Strikes the arcs of a state at the given positions, if all of them are there. -/
def strikeAt (positions : List Nat) (ledger : Ledger W) (t : Tag) : Ledger W :=
  if ∀ position ∈ positions, position < (ledger.entries t).length then
    ledger.strike (positions.filterMap fun position => (ledger.entries t)[position]?)
  else ledger

/-- Deletes states. The others keep their order. -/
def delete (book : Book W) (doomed : List Tag) : Book W :=
  { names := book.names.filter (· ∉ doomed), ledger := book.ledger.delete doomed }

def deleteAt (book : Book W) (doomed : List StateId) : Book W :=
  if ∀ s ∈ doomed, s < book.names.length then book.delete (doomed.filterMap fun s => book.names[s]?) else book

/-- The tags at their new positions. Only the positions change, so nothing is written down. -/
def rearrange (book : Book W) (order : Array StateId) : Book W :=
  if order.toList.Perm (List.range book.names.length) then
    { book with names := (List.range book.names.length).filterMap fun place => book.names[order.toList.idxOf place]? }
  else book

/-- What a call does to the book. The graph before the call tells only where sorting moves the states. -/
def record (graph : Graph W) (book : Book W) : Call W → Book W
  | .addState => book.addState
  | .addArc source arc => book.addArc source arc
  | .setStart s => book.write s Ledger.choose
  | .setFinal s weight => book.write s (Ledger.setFinal · (some weight))
  | .deleteFinal s => book.write s (Ledger.setFinal · none)
  | .deleteStates doomed => book.deleteAt doomed
  | .deleteAllStates => book.delete book.names
  | .deleteArcs s none => book.write s fun ledger t => ledger.strike (ledger.entries t)
  | .deleteArcs s (some positions) => book.write s (strikeAt positions)
  | .renumber order => book.rearrange order
  | .sort => (graph.sortingOrder?.map book.rearrange).getD book

def step (pair : Graph W × Book W) (call : Call W) : Graph W × Book W :=
  (pair.1.after call, pair.2.record pair.1 call)

def ofCalls (calls : List (Call W)) : Book W := (calls.foldl step (Graph.empty, {})).2

end Book

/-- An arc with the tag of its target, if the target is there. -/
def Arc.name? {W : Type} (names : List Tag) (arc : Arc W) : Option (Arc W) :=
  (names[arc.target]?).map fun target => { arc with target }

/-- The graph that is seen when each position is read as the tag there. -/
def Graph.read {W : Type} (graph : Graph W) (names : List Tag) : Tagged W where
  start := graph.start.bind fun s => names[s]?
  final t := (names.idxOf? t).bind fun s => (graph.states[s]?).bind State.final
  arcs t := match names.idxOf? t with
    | some s => (graph.arcsFrom s).filterMap (Arc.name? names)
    | none => []

end Transducer
