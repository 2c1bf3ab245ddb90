import Mathlib.Data.List.Nodup
import Transducer.Proofs.Recording

/-! What the events heard so far tell about a search that no visitor has stopped. From them alone one can read
which states are open, which are left for good and which arcs have been met, and so which event may be next. -/

namespace Transducer

variable {W : Type}

namespace Event

def discovered? : Event W → Option StateId
  | .discover s _ => some s
  | _ => none

def finished? : Event W → Option StateId
  | .finish s _ => some s
  | _ => none

/-- The source and the arc that an event is about. -/
def report? : Event W → Option (StateId × Arc W)
  | .treeArc source arc | .backArc source arc | .crossArc source arc => some (source, arc)
  | _ => none

/-- The state that has to be discovered next. -/
def awaited? : Event W → Option StateId
  | .treeArc _ arc => some arc.target
  | _ => none

end Event

def discoveries (heard : List (Event W)) : List StateId := heard.filterMap Event.discovered?

def finishes (heard : List (Event W)) : List StateId := heard.filterMap Event.finished?

/-- The arcs of a state that have been met. -/
def reportsFrom (s : StateId) (heard : List (Event W)) : List (Arc W) :=
  heard.filterMap fun event => (event.report?.filter fun report => report.1 = s).map Prod.snd

/-- The states discovered and not yet finished, with the last one discovered first. -/
def openStates (heard : List (Event W)) : List StateId :=
  (discoveries heard).reverse.filter fun s => s ∉ finishes heard

def awaited (heard : List (Event W)) : Option StateId := heard.getLast?.bind Event.awaited?

/-- An arc by which the target was discovered. -/
def TreeArc (heard : List (Event W)) (source target : StateId) : Prop :=
  ∃ arc : Arc W, .treeArc source arc ∈ heard ∧ arc.target = target

section Events

variable {heard more : List (Event W)} {s root : StateId} {event : Event W}

@[simp] theorem discoveries_append : discoveries (heard ++ more) = discoveries heard ++ discoveries more :=
  List.filterMap_append

@[simp] theorem finishes_append : finishes (heard ++ more) = finishes heard ++ finishes more :=
  List.filterMap_append

@[simp] theorem reportsFrom_append : reportsFrom s (heard ++ more) = reportsFrom s heard ++ reportsFrom s more :=
  List.filterMap_append

@[simp] theorem discoveries_singleton : discoveries [event] = event.discovered?.toList := by
  cases event <;> rfl

@[simp] theorem finishes_singleton : finishes [event] = event.finished?.toList := by
  cases event <;> rfl

@[simp] theorem awaited_concat : awaited (heard ++ [event]) = event.awaited? := by
  simp [awaited]

theorem reportsFrom_of_silent (silent : event.report? = none) :
    reportsFrom s (heard ++ [event]) = reportsFrom s heard := by
  simp [reportsFrom, silent]

theorem reportsFrom_concat {source : StateId} {arc : Arc W} (about : event.report? = some (source, arc)) :
    reportsFrom s (heard ++ [event]) = reportsFrom s heard ++ if source = s then [arc] else [] := by
  by_cases same : source = s <;> simp [reportsFrom, about, same]

theorem mem_openStates : s ∈ openStates heard ↔ s ∈ discoveries heard ∧ s ∉ finishes heard := by
  simp [openStates]

theorem openStates_discover (fresh : s ∉ finishes heard) :
    openStates (heard ++ [.discover s root]) = s :: openStates heard := by
  simp [openStates, Event.discovered?, Event.finished?, fresh]

theorem openStates_finish {parent : Option StateId} :
    openStates (heard ++ [.finish s parent]) = (openStates heard).filter (· ≠ s) := by
  simp [openStates, Event.discovered?, Event.finished?, List.filter_filter, and_comm]

theorem openStates_finish_inner {parent : Option StateId} {outer : List StateId}
    (opened : openStates heard = s :: outer) (distinct : (s :: outer).Nodup) : openStates (heard ++ [.finish s parent]) = outer := by
  rw [openStates_finish, opened, List.filter_cons_of_neg (by simp), List.filter_eq_self]
  intro other member
  have different : other ≠ s := fun same => (List.nodup_cons.mp distinct).1 (same ▸ member)
  simpa using different

theorem openStates_of_silent (undiscovered : event.discovered? = none) (unfinished : event.finished? = none) :
    openStates (heard ++ [event]) = openStates heard := by
  simp [openStates, undiscovered, unfinished]

theorem TreeArc.mono {source target : StateId} (tree : TreeArc heard source target) :
    TreeArc (heard ++ more) source target := by
  obtain ⟨arc, member, same⟩ := tree
  exact ⟨arc, List.mem_append_left more member, same⟩

end Events

/-- The events that may come next after those heard so far. -/
inductive Follows (graph : Graph W) (heard : List (Event W)) : Event W → Prop where
  | root {s : StateId} (inside : s < graph.size) (fresh : s ∉ discoveries heard) (free : awaited heard = none)
      (closed : openStates heard = []) : Follows graph heard (.discover s s)
  | child {s root : StateId} (inside : s < graph.size) (fresh : s ∉ discoveries heard)
      (expected : awaited heard = some s) (other : s ≠ root)
      (parent : ∀ p ∈ (openStates heard).head?, TreeArc heard p s) : Follows graph heard (.discover s root)
  | tree {source : StateId} {arc : Arc W} (inner : (openStates heard).head? = some source)
      (free : awaited heard = none) (fresh : arc.target ∉ discoveries heard) :
      Follows graph heard (.treeArc source arc)
  | back {source : StateId} {arc : Arc W} (inner : (openStates heard).head? = some source)
      (free : awaited heard = none) (opened : arc.target ∈ openStates heard) :
      Follows graph heard (.backArc source arc)
  | cross {source : StateId} {arc : Arc W} (inner : (openStates heard).head? = some source)
      (free : awaited heard = none) (left : arc.target ∈ finishes heard) :
      Follows graph heard (.crossArc source arc)
  | finish {s : StateId} {outer : List StateId} (inner : openStates heard = s :: outer)
      (free : awaited heard = none) (parent : ∀ p ∈ outer.head?, TreeArc heard p s)
      (root : outer = [] → .discover s s ∈ heard) : Follows graph heard (.finish s outer.head?)
  | done (closed : openStates heard = []) (free : awaited heard = none)
      (all : ∀ s < graph.size, s ∈ discoveries heard) (explored : ∀ s, reportsFrom s heard = graph.arcsFrom s) :
      Follows graph heard .done

/-- Each event follows those before it. -/
def Orderly (graph : Graph W) (heard : List (Event W)) : Prop :=
  ∀ k event, heard[k]? = some event → Follows graph (heard.take k) event

theorem orderly_concat {graph : Graph W} {heard : List (Event W)} {event : Event W} :
    Orderly graph (heard ++ [event]) ↔ Orderly graph heard ∧ Follows graph heard event := by
  constructor
  · intro orderly
    refine ⟨fun k other found => ?_, ?_⟩
    · have before := (List.getElem?_eq_some_iff.mp found).1
      have later := orderly k other (by rwa [List.getElem?_append_left before])
      rwa [List.take_append_of_le_length (Nat.le_of_lt before)] at later
    · simpa using orderly heard.length event List.getElem?_concat_length
  · rintro ⟨orderly, follows⟩ k other found
    rcases Nat.lt_trichotomy k heard.length with before | rfl | after
    · rw [List.getElem?_append_left before] at found
      rw [List.take_append_of_le_length (Nat.le_of_lt before)]
      exact orderly k other found
    · rw [List.getElem?_concat_length] at found
      cases found
      rwa [List.take_left]
    · rw [List.getElem?_eq_none (by simpa [Nat.succ_le_iff] using after)] at found
      cases found

theorem Orderly.concat {graph : Graph W} {heard : List (Event W)} {event : Event W} (orderly : Orderly graph heard)
    (follows : Follows graph heard event) : Orderly graph (heard ++ [event]) :=
  orderly_concat.mpr ⟨orderly, follows⟩

namespace Search

variable {graph : Graph W} {search next : Search W} {heard : List (Event W)}

/-- The states on the path that the visitor knows of. -/
def met (search : Search W) : List StateId :=
  if search.entering then (search.path.map Frame.state).tail else search.path.map Frame.state

/-- The innermost state if it was reached by an arc and is not yet discovered. -/
def expected (search : Search W) : Option StateId :=
  match search.entering, search.path with
  | true, frame :: _ :: _ => some frame.state
  | _, _ => none

theorem met_of_entering (entering : search.entering = true) : search.met = (search.path.map Frame.state).tail :=
  if_pos entering

theorem met_of_entered (entered : search.entering = false) : search.met = search.path.map Frame.state :=
  if_neg (Bool.eq_false_iff.mp entered)

theorem met_subset (search : Search W) : search.met ⊆ search.path.map Frame.state := by
  unfold met
  split
  next => exact (List.tail_sublist _).subset
  next => exact List.Subset.refl _

/-- What the events heard so far tell about a search that goes on. -/
structure Recounts (graph : Graph W) (heard : List (Event W)) (search : Search W) : Prop where
  valid : search.Valid graph
  running : search.running = true
  /-- Only a state on the path is entered. -/
  settled : search.path = [] → search.entering = false
  distinct : (discoveries heard).Nodup
  opened : openStates heard = search.met
  finished : ∀ s, s ∈ finishes heard ↔ search.colors[s]? = some .black
  closed : finishes heard ⊆ discoveries heard
  linked : (search.path.map Frame.state).IsChain fun inner outer => TreeArc heard outer inner
  root : ∀ s ∈ (search.path.map Frame.state).getLast?, s = search.root
  rooted : ∀ s ∈ (openStates heard).getLast?, .discover s s ∈ heard
  pending : ∀ frame ∈ search.path, reportsFrom frame.state heard ++ frame.pending = graph.arcsFrom frame.state
  explored : ∀ s ∈ finishes heard, reportsFrom s heard = graph.arcsFrom s
  unexplored : ∀ s, s ∉ discoveries heard → reportsFrom s heard = []
  unfinished : .done ∉ heard

theorem begin_recounts (graph : Graph W) : Recounts graph [] (begin graph) where
  valid := begin_valid graph
  running := rfl
  settled _ := rfl
  distinct := .nil
  opened := rfl
  finished s := by simp [begin, finishes, Array.getElem?_replicate]
  closed := List.nil_subset _
  linked := .nil
  root := by simp [begin]
  rooted := by simp [openStates, discoveries]
  pending := by simp [begin]
  explored s finished := by simp [finishes] at finished
  unexplored s _ := rfl
  unfinished := List.not_mem_nil

namespace Recounts

variable {frame : Frame W} {outer : List (Frame W)} {s : StateId}

theorem mem_discoveries (recounts : Recounts graph heard search) :
    s ∈ discoveries heard ↔ s ∈ finishes heard ∨ s ∈ search.met := by
  rw [← recounts.opened, mem_openStates]
  constructor
  · intro discovered
    by_cases finished : s ∈ finishes heard
    · exact .inl finished
    · exact .inr ⟨discovered, finished⟩
  · intro given
    rcases given with finished | ⟨discovered, _⟩
    · exact recounts.closed finished
    · exact discovered

theorem not_mem_finishes (recounts : Recounts graph heard search) {color : Color}
    (seen : search.colors[s]? = some color) (other : color ≠ .black) : s ∉ finishes heard := by
  rw [recounts.finished, seen]
  simpa using other

/-- A white state is not yet discovered. -/
theorem fresh_of_white (recounts : Recounts graph heard search) (white : search.colors[s]? = some .white) :
    s ∉ discoveries heard := by
  rw [recounts.mem_discoveries]
  rintro (finished | inside)
  · exact recounts.not_mem_finishes white nofun finished
  · have grey := (recounts.valid.grey s).mpr (search.met_subset inside)
    rw [white] at grey
    cases grey

theorem grey (recounts : Recounts graph heard search) (path : search.path = frame :: outer) :
    search.colors[frame.state]? = some .grey :=
  (recounts.valid.grey _).mpr (by simp [path])

theorem not_mem_outer (recounts : Recounts graph heard search) (path : search.path = frame :: outer) :
    frame.state ∉ outer.map Frame.state := by
  have distinct := recounts.valid.distinct
  rw [path, List.map_cons, List.nodup_cons] at distinct
  exact distinct.1

/-- The path ends in its root. -/
theorem root_of_path (recounts : Recounts graph heard search) (path : search.path = frame :: outer) :
    ((frame :: outer).map Frame.state).getLast? = some search.root := by
  obtain ⟨last, found⟩ : ∃ last, ((frame :: outer).map Frame.state).getLast? = some last :=
    ⟨_, List.getLast?_eq_some_getLast (by simp)⟩
  rw [found, recounts.root last (path ▸ found)]

/-- The state that is being entered is not yet discovered. -/
theorem fresh_of_entering (recounts : Recounts graph heard search) (path : search.path = frame :: outer)
    (entering : search.entering = true) : frame.state ∉ discoveries heard := by
  rw [recounts.mem_discoveries, met_of_entering entering, path, List.map_cons, List.tail_cons]
  rintro (finished | inside)
  · exact recounts.not_mem_finishes (recounts.grey path) nofun finished
  · exact recounts.not_mem_outer path inside

theorem dropRoot {roots : List StateId} (recounts : Recounts graph heard search)
    (valid : { search with roots }.Valid graph) : Recounts graph heard { search with roots } :=
  { recounts with valid }

/-- A new state on the path is told to the visitor later. -/
theorem enter {roots : List StateId} {root : StateId} (recounts : Recounts graph heard search)
    (white : search.colors[s]? = some .white) (entered : search.entering = false)
    (valid : ({ search with roots, root }.enter graph s).Valid graph)
    (linked : ∀ frame ∈ search.path.head?, TreeArc heard frame.state s)
    (first : search.path = [] → s = root) (later : search.path ≠ [] → search.root = root) :
    Recounts graph heard ({ search with roots, root }.enter graph s) := by
  have fresh := recounts.fresh_of_white white
  have bound := (Array.getElem?_eq_some_iff.mp white).1
  have met : ({ search with roots, root }.enter graph s).met = search.met := (met_of_entered entered).symm
  constructor
  case valid => exact valid
  case running => exact recounts.running
  case settled => exact nofun
  case distinct => exact recounts.distinct
  case opened => exact recounts.opened.trans met.symm
  case finished =>
    intro other
    rw [recounts.finished]
    by_cases same : s = other
    · subst same
      rw [white]
      simp [Search.enter, bound]
    · simp [Search.enter, same]
  case closed => exact recounts.closed
  case linked =>
    cases path : search.path with
    | nil => simp [Search.enter]
    | cons frame outer =>
      have before := path ▸ recounts.linked
      have inner := linked frame (by simp [path])
      simpa [Search.enter, path] using ⟨inner, before⟩
  case root =>
    intro last final
    cases path : search.path with
    | nil =>
      obtain rfl : s = last := by simpa [Search.enter, path] using final
      exact first path
    | cons frame outer =>
      have same := later (by simp [path])
      exact same ▸ recounts.root last (by simpa [Search.enter, path] using final)
  case rooted => exact recounts.rooted
  case pending =>
    intro frame member
    rcases List.mem_cons.mp member with rfl | inside
    · simp [recounts.unexplored s fresh]
    · exact recounts.pending frame inside
  case explored => exact recounts.explored
  case unexplored => exact recounts.unexplored
  case unfinished => exact recounts.unfinished

/-- The visitor is told of the state that was put on the path last. -/
theorem discover (recounts : Recounts graph heard search) (path : search.path = frame :: outer)
    (entering : search.entering = true) (valid : { search with entering := false, running := true }.Valid graph) :
    Recounts graph (heard ++ [.discover frame.state search.root])
      { search with entering := false, running := true } := by
  have fresh := recounts.fresh_of_entering path entering
  have unfinished : frame.state ∉ finishes heard := fun finished => fresh (recounts.closed finished)
  have before : openStates heard = outer.map Frame.state := by
    rw [recounts.opened, met_of_entering entering, path, List.map_cons, List.tail_cons]
  have opened : openStates (heard ++ [.discover frame.state search.root]) = search.path.map Frame.state := by
    rw [openStates_discover unfinished, before, path, List.map_cons]
  have reports (s : StateId) : reportsFrom s (heard ++ [.discover frame.state search.root]) = reportsFrom s heard :=
    reportsFrom_of_silent rfl
  have finishes_same : finishes (heard ++ [.discover frame.state search.root]) = finishes heard := by
    simp [Event.finished?]
  constructor
  case valid => exact valid
  case running => rfl
  case settled => exact fun _ => rfl
  case distinct => simpa [Event.discovered?] using recounts.distinct.concat fresh
  case opened => exact opened
  case finished => exact finishes_same ▸ recounts.finished
  case closed =>
    intro s finished
    simp [recounts.closed (finishes_same ▸ finished)]
  case linked => exact recounts.linked.imp fun _ _ => TreeArc.mono
  case root => exact recounts.root
  case rooted =>
    intro s last
    rw [opened, path] at last
    cases outer with
    | nil =>
      obtain rfl : frame.state = s := by simpa using last
      have root : frame.state = search.root := recounts.root frame.state (by simp [path])
      simp [← root]
    | cons next outer => exact List.mem_append_left _ (recounts.rooted s (by simpa [before] using last))
  case pending => exact fun other member => reports other.state ▸ recounts.pending other member
  case explored => exact fun s finished => reports s ▸ recounts.explored s (finishes_same ▸ finished)
  case unexplored =>
    intro s undiscovered
    exact reports s ▸ recounts.unexplored s fun before => undiscovered (by simp [before])
  case unfinished => simp [recounts.unfinished]

/-- An arc of the innermost state is met. -/
theorem passArc {event : Event W} {arc : Arc W} {pending : List (Arc W)} {running : Bool}
    (recounts : Recounts graph heard search) (path : search.path = frame :: outer)
    (entered : search.entering = false) (rest : frame.pending = arc :: pending)
    (about : event.report? = some (frame.state, arc)) (goesOn : running = true)
    (valid : { search with path := { frame with pending } :: outer, running }.Valid graph) :
    Recounts graph (heard ++ [event]) { search with path := { frame with pending } :: outer, running } := by
  have undiscovered : event.discovered? = none := by cases event <;> simp_all [Event.report?, Event.discovered?]
  have unfinished : event.finished? = none := by cases event <;> simp_all [Event.report?, Event.finished?]
  have discoveries_same : discoveries (heard ++ [event]) = discoveries heard := by simp [undiscovered]
  have finishes_same : finishes (heard ++ [event]) = finishes heard := by simp [unfinished]
  have opened_same : openStates (heard ++ [event]) = openStates heard := openStates_of_silent undiscovered unfinished
  have states : ({ frame with pending } :: outer).map Frame.state = search.path.map Frame.state := by simp [path]
  have met : { search with path := { frame with pending } :: outer, running }.met = search.path.map Frame.state := by
    rw [← states]
    exact met_of_entered entered
  have opened : frame.state ∈ openStates heard := by simp [recounts.opened, met_of_entered entered, path]
  have other {s : StateId} (different : frame.state ≠ s) : reportsFrom s (heard ++ [event]) = reportsFrom s heard := by
    rw [reportsFrom_concat about, if_neg different, List.append_nil]
  constructor
  case valid => exact valid
  case running => exact goesOn
  case settled => exact nofun
  case distinct => exact discoveries_same ▸ recounts.distinct
  case opened => exact opened_same.trans (recounts.opened.trans ((met_of_entered entered).trans met.symm))
  case finished => exact finishes_same ▸ recounts.finished
  case closed => exact finishes_same ▸ discoveries_same ▸ recounts.closed
  case linked => exact states ▸ recounts.linked.imp fun _ _ => TreeArc.mono
  case root => exact states ▸ recounts.root
  case rooted => exact fun s last => List.mem_append_left _ (recounts.rooted s (opened_same ▸ last))
  case pending =>
    intro current member
    rcases List.mem_cons.mp member with rfl | inside
    · have before := recounts.pending frame (by simp [path])
      rw [reportsFrom_concat about, if_pos rfl, List.append_assoc, ← before, rest]
      rfl
    · have different : frame.state ≠ current.state := fun same =>
        recounts.not_mem_outer path (same ▸ List.mem_map_of_mem inside)
      rw [other different]
      exact recounts.pending current (by simp [path, inside])
  case explored =>
    intro s finished
    rw [finishes_same] at finished
    have different : frame.state ≠ s := fun same => (mem_openStates.mp opened).2 (same ▸ finished)
    exact other different ▸ recounts.explored s finished
  case unexplored =>
    intro s undiscovered
    rw [discoveries_same] at undiscovered
    have different : frame.state ≠ s := fun same => undiscovered (same ▸ (mem_openStates.mp opened).1)
    exact other different ▸ recounts.unexplored s undiscovered
  case unfinished =>
    have other : event ≠ .done := fun same => by simp [same, Event.report?] at about
    simp [recounts.unfinished, Ne.symm other]

/-- The innermost state is left when its arcs are all met. -/
theorem leave {parent : Option StateId} (recounts : Recounts graph heard search) (path : search.path = frame :: outer)
    (entered : search.entering = false) (exhausted : frame.pending = [])
    (valid : (search.leave frame.state outer).Valid graph) :
    Recounts graph (heard ++ [.finish frame.state parent]) (search.leave frame.state outer) := by
  have bound := (Array.getElem?_eq_some_iff.mp (recounts.grey path)).1
  have before : openStates heard = frame.state :: outer.map Frame.state := by
    rw [recounts.opened, met_of_entered entered, path, List.map_cons]
  have met : (search.leave frame.state outer).met = outer.map Frame.state := met_of_entered entered
  have discovered : frame.state ∈ discoveries heard := (mem_openStates.mp (by simp [before])).1
  have opened : openStates (heard ++ [.finish frame.state parent]) = outer.map Frame.state :=
    openStates_finish_inner before (by simpa [path] using recounts.valid.distinct)
  have discoveries_same : discoveries (heard ++ [.finish frame.state parent]) = discoveries heard := by
    simp [Event.discovered?]
  have mem_finishes (s : StateId) :
      s ∈ finishes (heard ++ [.finish frame.state parent]) ↔ s ∈ finishes heard ∨ s = frame.state := by
    simp [Event.finished?]
  have reports (s : StateId) : reportsFrom s (heard ++ [.finish frame.state parent]) = reportsFrom s heard :=
    reportsFrom_of_silent rfl
  constructor
  case valid => exact valid
  case running => exact recounts.running
  case settled => exact fun _ => entered
  case distinct => exact discoveries_same ▸ recounts.distinct
  case opened => exact opened.trans met.symm
  case finished =>
    intro s
    rw [mem_finishes, recounts.finished]
    by_cases same : frame.state = s
    · subst same
      simp [Search.leave, bound]
    · simp [Search.leave, same, Ne.symm same]
  case closed =>
    intro s finished
    rw [discoveries_same]
    rcases (mem_finishes s).mp finished with earlier | rfl
    · exact recounts.closed earlier
    · exact discovered
  case linked =>
    have linked := recounts.linked
    rw [path] at linked
    exact linked.tail.imp fun _ _ => TreeArc.mono
  case root =>
    intro s last
    apply recounts.root
    cases outer with
    | nil => cases last
    | cons next outer => simpa [path, Search.leave] using last
  case rooted =>
    intro s last
    rw [opened] at last
    refine List.mem_append_left _ (recounts.rooted s ?_)
    cases outer with
    | nil => cases last
    | cons next outer => simpa [before] using last
  case pending =>
    intro other member
    rw [reports]
    exact recounts.pending other (by simpa [path] using .inr member)
  case explored =>
    intro s finished
    rw [reports]
    rcases (mem_finishes s).mp finished with earlier | rfl
    · exact recounts.explored s earlier
    · simpa [exhausted] using recounts.pending frame (by simp [path])
  case unexplored => exact fun s undiscovered => reports s ▸ recounts.unexplored s (discoveries_same ▸ undiscovered)
  case unfinished => simp [recounts.unfinished]

end Recounts

/-- The events heard so far came in order, and they tell about the search. -/
structure Keeps (graph : Graph W) (heard : List (Event W)) (search : Search W) : Prop where
  recounts : Recounts graph heard search
  awaits : awaited heard = search.expected
  orderly : Orderly graph heard

theorem expected_of_entered (entered : search.entering = false) : search.expected = none := by
  simp [expected, entered]

theorem awaits_of_entered {event : Event W} (silent : event.awaited? = none) (entered : search.entering = false) :
    awaited (heard ++ [event]) = search.expected := by
  rw [awaited_concat, silent, expected_of_entered entered]

theorem begin_keeps (graph : Graph W) : Keeps graph [] (begin graph) where
  recounts := begin_recounts graph
  awaits := rfl
  orderly k event found := by simp at found

namespace Keeps

theorem pass (keeps : Keeps graph heard search) (moves : Moves graph search (.pass next)) : Keeps graph heard next := by
  have valid := keeps.recounts.valid.step moves .pass
  have recounts := keeps.recounts
  cases moves with
  | @newRoot root roots path running rest white =>
    have entered := recounts.settled path
    have free : awaited heard = none := keeps.awaits.trans (expected_of_entered entered)
    have entering : ({ search with roots, root }.enter graph root).expected = none := by
      simp [expected, Search.enter, path]
    refine ⟨recounts.enter white entered valid ?_ (fun _ => rfl) ?_, free.trans entering.symm, keeps.orderly⟩
    · simp [path]
    · exact fun other => absurd path other
  | oldRoot path running rest seen other => exact ⟨recounts.dropRoot valid, keeps.awaits, keeps.orderly⟩

/-- The innermost state and nothing else may be explored or left. -/
theorem inner {frame : Frame W} {outer : List (Frame W)} (keeps : Keeps graph heard search)
    (path : search.path = frame :: outer) (entered : search.entering = false) :
    openStates heard = frame.state :: outer.map Frame.state ∧ awaited heard = none := by
  constructor
  · rw [keeps.recounts.opened, met_of_entered entered, path, List.map_cons]
  · exact keeps.awaits.trans (expected_of_entered entered)

theorem discovers {frame : Frame W} {outer : List (Frame W)} (keeps : Keeps graph heard search)
    (path : search.path = frame :: outer) (entering : search.entering = true) :
    Follows graph heard (.discover frame.state search.root) := by
  have recounts := keeps.recounts
  have fresh := recounts.fresh_of_entering path entering
  have inside : frame.state < graph.size :=
    recounts.valid.sized ▸ (Array.getElem?_eq_some_iff.mp (recounts.grey path)).1
  cases outer with
  | nil =>
    have root : frame.state = search.root := recounts.root frame.state (by simp [path])
    have free : awaited heard = none := by simp [keeps.awaits, expected, path]
    have closed : openStates heard = [] := by simp [recounts.opened, met_of_entering entering, path]
    exact root ▸ .root inside fresh free closed
  | cons next outer =>
    have awaits : awaited heard = some frame.state := by simp [keeps.awaits, expected, entering, path]
    refine .child inside fresh awaits (fun same => recounts.not_mem_outer path ?_) fun p member => ?_
    · have last : ((next :: outer).map Frame.state).getLast? = some search.root := by
        simpa using recounts.root_of_path path
      exact same ▸ List.mem_of_getLast? last
    · obtain rfl : next.state = p := by simpa [recounts.opened, met_of_entering entering, path] using member
      have linked := recounts.linked
      rw [path, List.map_cons, List.map_cons] at linked
      exact (List.isChain_cons_cons.mp linked).1

theorem ask {event : Event W} {next : Bool → Search W} (keeps : Keeps graph heard search)
    (moves : Moves graph search (.ask event next)) : Keeps graph (heard ++ [event]) (next true) := by
  have valid := keeps.recounts.valid.step moves (.ask true)
  have recounts := keeps.recounts
  cases moves with
  | discover path entering =>
    have orderly := keeps.orderly.concat (keeps.discovers path entering)
    exact ⟨recounts.discover path entering valid, awaits_of_entered rfl rfl, orderly⟩
  | @tree frame outer arc pending path entered running rest white =>
    obtain ⟨opened, free⟩ := keeps.inner path entered
    have passed : Recounts graph (heard ++ [.treeArc frame.state arc])
        { search with path := { frame with pending } :: outer } :=
      recounts.passArc path entered rest rfl running (recounts.valid.passArc path rest)
    refine ⟨passed.enter white entered valid ?_ nofun fun _ => rfl, awaited_concat, keeps.orderly.concat ?_⟩
    · intro other same
      cases same
      exact ⟨arc, by simp, rfl⟩
    · exact .tree (by simp [opened]) free (recounts.fresh_of_white white)
  | @back frame outer arc pending path entered running rest grey =>
    obtain ⟨opened, free⟩ := keeps.inner path entered
    have inside : arc.target ∈ openStates heard := by
      simpa [opened, path] using (recounts.valid.grey arc.target).mp grey
    refine ⟨recounts.passArc path entered rest rfl rfl valid, ?_, keeps.orderly.concat ?_⟩
    · exact awaits_of_entered rfl entered
    · exact .back (by simp [opened]) free inside
  | @cross frame outer arc pending path entered running rest black =>
    obtain ⟨opened, free⟩ := keeps.inner path entered
    have left : arc.target ∈ finishes heard := (recounts.finished _).mpr black
    refine ⟨recounts.passArc path entered rest rfl rfl valid, ?_, keeps.orderly.concat ?_⟩
    · exact awaits_of_entered rfl entered
    · exact .cross (by simp [opened]) free left

theorem tell {event : Event W} (keeps : Keeps graph heard search) (moves : Moves graph search (.tell event next)) :
    Keeps graph (heard ++ [event]) next := by
  have valid := keeps.recounts.valid.step moves .tell
  have recounts := keeps.recounts
  cases moves with
  | @finish frame outer path entered explored =>
    obtain ⟨opened, free⟩ := keeps.inner path entered
    have linked := recounts.linked
    rw [path, List.map_cons] at linked
    refine ⟨recounts.leave path entered (explored recounts.running) valid, ?_, keeps.orderly.concat ?_⟩
    · exact awaits_of_entered rfl entered
    · rw [← List.head?_map]
      refine .finish opened free (fun p member => ?_) fun alone => recounts.rooted _ ?_
      · cases outer with
        | nil => cases member
        | cons next outer =>
          obtain rfl : next.state = p := by simpa using member
          exact (List.isChain_cons_cons.mp linked).1
      · simp [opened, alone]

theorem ends (keeps : Keeps graph heard search) (moves : Moves graph search .stop) : Follows graph heard .done := by
  have recounts := keeps.recounts
  cases moves with
  | done path exhausted =>
    have entered := recounts.settled path
    have opened : openStates heard = [] := by rw [recounts.opened, met_of_entered entered, path, List.map_nil]
    have left {s : StateId} (inside : s < graph.size) : s ∈ finishes heard :=
      (recounts.finished s).mpr (recounts.valid.black_of_done path (exhausted recounts.running) inside)
    refine .done opened (keeps.awaits.trans (expected_of_entered entered)) (fun s inside => ?_) fun s => ?_
    · exact recounts.closed (left inside)
    · by_cases inside : s < graph.size
      · exact recounts.explored s (left inside)
      · have outside : graph.size ≤ s := Nat.le_of_not_lt inside
        have beyond : search.colors[s]? = none := Array.getElem?_eq_none (recounts.valid.sized ▸ outside)
        have unknown : s ∉ discoveries heard := by
          rw [recounts.mem_discoveries, recounts.finished, beyond, met_of_entered entered, path]
          simp
        rw [recounts.unexplored s unknown, graph.arcsFrom_of_size_le outside]

end Keeps

end Search

end Transducer
