import Transducer.Graph.TopOrder
import Transducer.Proofs.SearchInvariant

/-! A search that stops at the first back arc leaves a state only after all states that it leads to. So
the states in the order in which they were left, the last one first, are in topological order, and a
back arc closes a cycle. -/

namespace Transducer.Departures
open Relation Search

variable {W : Type} {graph : Graph W} {search : Search W} {departures : Departures}

def Ordered (graph : Graph W) : List StateId → Prop
  | [] => True
  | s :: rest => (∀ t, graph.Edge s t → t ∈ rest) ∧ Ordered graph rest

/-- Each arc of a state on the path is still pending, leads to a state left for good, or is the arc by
which the path goes on to the inner state. -/
def Explored (graph : Graph W) (colors : Array Color) : Option StateId → List (Frame W) → Prop
  | _, [] => True
  | inner, frame :: outer =>
    (∀ arc ∈ graph.arcsFrom frame.state,
      arc ∈ frame.pending ∨ colors[arc.target]? = some .black ∨ inner = some arc.target) ∧
    Explored graph colors (some frame.state) outer

theorem Explored.mono {colors later : Array Color} {inner : Option StateId} {path : List (Frame W)}
    (explored : Explored graph colors inner path)
    (black : ∀ s : StateId, colors[s]? = some .black → later[s]? = some .black) : Explored graph later inner path := by
  induction path generalizing inner with
  | nil => trivial
  | cons frame outer ih =>
    refine ⟨fun arc member => ?_, ih explored.2⟩
    rcases explored.1 arc member with pending | left | inside
    · exact .inl pending
    · exact .inr (.inl (black _ left))
    · exact .inr (.inr inside)

theorem Explored.passArc {colors : Array Color} {inner : Option StateId} {frame : Frame W}
    {outer : List (Frame W)} {arc : Arc W} {pending : List (Arc W)}
    (explored : Explored graph colors none (frame :: outer)) (rest : frame.pending = arc :: pending)
    (settled : colors[arc.target]? = some .black ∨ inner = some arc.target) :
    Explored graph colors inner ({ frame with pending } :: outer) := by
  refine ⟨fun other member => ?_, explored.2⟩
  rcases explored.1 other member with waiting | left | inside
  · rcases List.mem_cons.mp (rest ▸ waiting) with rfl | later
    · exact .inr settled
    · exact .inl later
  · exact .inr (.inl left)
  · cases inside

/-- The inner state counts no more once it is black. -/
theorem Explored.leave {colors later : Array Color} {inner : StateId} {path : List (Frame W)}
    (explored : Explored graph colors (some inner) path) (left : later[inner]? = some .black)
    (black : ∀ s : StateId, colors[s]? = some .black → later[s]? = some .black) : Explored graph later none path := by
  cases path with
  | nil => trivial
  | cons frame outer =>
    refine ⟨fun arc member => ?_, explored.2.mono black⟩
    rcases explored.1 arc member with pending | before | inside
    · exact .inl pending
    · exact .inr (.inl (black _ before))
    · exact .inr (.inl (Option.some.inj inside ▸ left))

theorem black_enter {state : StateId} (white : search.colors[state]? = some .white) (s : StateId) :
    (search.enter graph state).colors[s]? = some .black ↔ search.colors[s]? = some .black := by
  by_cases same : s = state
  · subst same
    rw [white]
    simp [Search.enter, (Array.getElem?_eq_some_iff.mp white).1]
  · simp [Search.enter, Ne.symm same]

theorem black_leave {state : StateId} {outer : List (Frame W)} (grey : search.colors[state]? = some .grey)
    (s : StateId) :
    (search.leave state outer).colors[s]? = some .black ↔ s = state ∨ search.colors[s]? = some .black := by
  by_cases same : s = state
  · subst same
    simp [Search.leave, (Array.getElem?_eq_some_iff.mp grey).1]
  · simp [Search.leave, same, Ne.symm same]

/-- What the departures tell about a search under way. -/
structure Tracks (graph : Graph W) (departures : Departures) (search : Search W) : Prop where
  valid : search.Valid graph
  running : search.running = departures.acyclic
  cyclic : departures.acyclic = false → graph.Cyclic
  black : ∀ s, s ∈ departures.left ↔ search.colors[s]? = some .black
  distinct : departures.left.Nodup
  ordered : departures.acyclic = true → Ordered graph departures.left
  explored : departures.acyclic = true → Explored graph search.colors none search.path

theorem begin_tracks (graph : Graph W) : Tracks graph {} (begin graph) where
  valid := begin_valid graph
  running := rfl
  cyclic := by simp
  black s := by simp [begin, Array.getElem?_replicate]
  distinct := .nil
  ordered _ := trivial
  explored _ := trivial

/-- A state that is met for the first time has no arc explored, and black states stay black. -/
theorem Tracks.enter {before : Search W} {state : StateId} (tracks : Tracks graph departures before)
    (colors : search.colors = before.colors) (running : search.running = before.running)
    (valid : (search.enter graph state).Valid graph) (white : search.colors[state]? = some .white)
    (explored : departures.acyclic = true → Explored graph search.colors (some state) search.path) :
    Tracks graph departures (search.enter graph state) := by
  constructor
  case valid => exact valid
  case running => exact running.trans tracks.running
  case cyclic => exact tracks.cyclic
  case black => exact fun s => (tracks.black s).trans (colors ▸ (black_enter white s).symm)
  case distinct => exact tracks.distinct
  case ordered => exact tracks.ordered
  case explored =>
    intro acyclic
    exact ⟨fun arc member => .inl member, (explored acyclic).mono fun s left => (black_enter white s).mpr left⟩

/-- An innermost state whose arcs are all explored leads to black states only, so it may be left. -/
theorem Tracks.leave {frame : Frame W} {outer : List (Frame W)} (tracks : Tracks graph departures search)
    (path : search.path = frame :: outer) (rest : search.running = true → frame.pending = []) :
    Tracks graph { departures with left := frame.state :: departures.left } (search.leave frame.state outer) := by
  have grey : search.colors[frame.state]? = some .grey := (tracks.valid.grey _).mpr (by simp [path])
  constructor
  case valid => exact tracks.valid.leave path
  case running => exact tracks.running
  case cyclic => exact tracks.cyclic
  case black =>
    intro s
    rw [black_leave grey, List.mem_cons, tracks.black s]
  case distinct =>
    refine List.nodup_cons.mpr ⟨fun left => ?_, tracks.distinct⟩
    have already := (tracks.black _).mp left
    rw [grey] at already
    cases already
  case ordered =>
    intro acyclic
    refine ⟨fun t edge => ?_, tracks.ordered acyclic⟩
    obtain ⟨arc, member, rfl⟩ := edge
    have explored := (path ▸ tracks.explored acyclic).1 arc member
    rw [rest (tracks.running.trans acyclic)] at explored
    rcases explored with pending | left | inside
    · cases pending
    · exact (tracks.black _).mpr left
    · cases inside
  case explored =>
    intro acyclic
    have explored : Explored graph search.colors (some frame.state) outer := (path ▸ tracks.explored acyclic).2
    exact explored.leave ((black_leave grey _).mpr (.inl rfl)) fun s before => (black_leave grey s).mpr (.inr before)

theorem Tracks.carry {next : Search W} (tracks : Tracks graph departures search) (valid : next.Valid graph)
    (colors : next.colors = search.colors) (running : next.running = search.running)
    (explored : departures.acyclic = true → Explored graph search.colors none next.path) :
    Tracks graph departures next where
  valid := valid
  running := running.trans tracks.running
  cyclic := tracks.cyclic
  black := colors ▸ tracks.black
  distinct := tracks.distinct
  ordered := tracks.ordered
  explored := colors ▸ explored

theorem Tracks.pass {next : Search W} (tracks : Tracks graph departures search)
    (moves : Moves graph search (.pass next)) : Tracks graph departures next := by
  have valid := tracks.valid.step moves .pass
  cases moves with
  | newRoot path running rest white =>
    exact tracks.enter rfl rfl valid white fun _ => path ▸ trivial
  | oldRoot path running rest seen other => exact tracks.carry valid rfl rfl tracks.explored

/-- A back arc leads to a state that leads to it, so the search has found a cycle. -/
theorem Tracks.closes {frame : Frame W} {outer : List (Frame W)} {arc : Arc W} {pending : List (Arc W)}
    (valid : search.Valid graph) (path : search.path = frame :: outer) (rest : frame.pending = arc :: pending)
    (grey : search.colors[arc.target]? = some .grey) : graph.Cyclic := by
  have inside : arc.target ∈ (frame :: outer).map Frame.state := path ▸ (valid.grey _).mp grey
  have edge : graph.Edge frame.state arc.target := ⟨arc, valid.arc_mem path rest, rfl⟩
  exact ⟨frame.state, .head' edge ((path ▸ valid.linked : Linked graph (frame :: outer)).reaches inside)⟩

theorem Tracks.ask {event : Event W} {next : Bool → Search W} (tracks : Tracks graph departures search)
    (moves : Moves graph search (.ask event next)) :
    Tracks graph (departures.visit event).1 (next (departures.visit event).2) := by
  have valid (answer : Bool) := tracks.valid.step moves (.ask answer)
  have acyclic (running : search.running = true) : departures.acyclic = true := tracks.running ▸ running
  cases moves with
  | discover path entering =>
    have running := tracks.valid.entering entering
    exact tracks.carry (valid true) rfl running.symm tracks.explored
  | tree path entering running rest white =>
    refine tracks.enter rfl rfl (valid true) white fun _ => ?_
    exact (path ▸ tracks.explored (acyclic running)).passArc rest (.inr rfl)
  | cross path entering running rest black =>
    apply tracks.carry (valid true) rfl running.symm
    intro _
    exact (path ▸ tracks.explored (acyclic running)).passArc rest (.inl black)
  | back path entering running rest grey =>
    constructor
    case valid => exact valid false
    case running => rfl
    case cyclic => exact fun _ => Tracks.closes tracks.valid path rest grey
    case black => exact tracks.black
    case distinct => exact tracks.distinct
    case ordered => nofun
    case explored => nofun

theorem Tracks.tell {event : Event W} {next : Search W} (tracks : Tracks graph departures search)
    (moves : Moves graph search (.tell event next)) : Tracks graph (departures.visit event).1 next := by
  cases moves with
  | finish path entering explored => exact tracks.leave path explored

/-- Every state once, each before all states that it leads to. -/
structure Topological (graph : Graph W) (left : List StateId) : Prop where
  distinct : left.Nodup
  member : ∀ s, s ∈ left ↔ s < graph.size
  ordered : Ordered graph left

/-- A search that has come to its end without a back arc has left the states in topological order. -/
theorem Tracks.topological (tracks : Tracks graph departures search) (path : search.path = [])
    (ended : search.running = true → search.roots = []) (acyclic : departures.acyclic = true) :
    Topological graph departures.left := by
  refine ⟨tracks.distinct, fun s => ?_, tracks.ordered acyclic⟩
  rw [tracks.black]
  constructor
  · intro black
    exact tracks.valid.sized ▸ (Array.getElem?_eq_some_iff.mp black).1
  · exact tracks.valid.black_of_done path (ended (tracks.running.trans acyclic))

/-- A number that the graph names but that is no state of it. -/
def Lost (graph : Graph W) (s : StateId) : Prop :=
  graph.size ≤ s ∧ (graph.start = some s ∨ ∃ source, graph.Edge source s)

/-- A search fails only at a number that is no state. -/
theorem lost_of_fail {s : StateId} (valid : search.Valid graph) (moves : Moves graph search (.fail s)) :
    Lost graph s := by
  have beyond (outside : search.colors[s]? = none) : graph.size ≤ s :=
    valid.sized ▸ Array.getElem?_eq_none_iff.mp outside
  cases moves with
  | lostRoot path running rest outside =>
    refine ⟨beyond outside, .inl ?_⟩
    have tried := valid.roots.mem (rest ▸ List.mem_cons_self)
    rcases List.mem_append.mp tried with start | state
    · simpa using start
    · exact absurd (List.mem_range.mp state) (Nat.not_lt.mpr (beyond outside))
  | lostTarget path entering running rest outside =>
    exact ⟨beyond outside, .inr ⟨_, _, valid.arc_mem path rest, rfl⟩⟩

def Settled (graph : Graph W) : Departures × Except GraphError Unit → Prop
  | (departures, .ok ()) => if departures.acyclic then Topological graph departures.left else graph.Cyclic
  | (_, .error error) => ∃ s, error = .invalidState s ∧ Lost graph s

theorem Tracks.settled (tracks : Tracks graph departures search) (moves : Moves graph search .stop) :
    Settled graph (departures, .ok ()) := by
  cases moves with
  | done path ended =>
    show if departures.acyclic then Topological graph departures.left else graph.Cyclic
    split
    next acyclic => exact tracks.topological path ended acyclic
    next cyclic => exact tracks.cyclic (Bool.eq_false_iff.mpr cyclic)

theorem search_settles (graph : Graph W) : Settled graph (graph.search visit {}) := by
  apply run_satisfies
  case holds => exact begin_tracks graph
  case pass => exact fun _ _ _ tracks moves => Tracks.pass tracks moves
  case ask => exact fun _ _ _ _ tracks moves => Tracks.ask tracks moves
  case tell => exact fun _ _ _ _ tracks moves => Tracks.tell tracks moves
  case fail => exact fun _ _ s tracks moves => ⟨s, rfl, lost_of_fail tracks.valid moves⟩
  case stop => exact fun _ _ tracks moves => Tracks.settled tracks moves

/-- The search for an order finds one, or a cycle, or a number that is no state. -/
theorem topOrder?_cases (graph : Graph W) :
    (∃ left, graph.topOrder? = .ok (some (ranks left)) ∧ Topological graph left) ∨
    (graph.topOrder? = .ok none ∧ graph.Cyclic) ∨
    (∃ s, graph.topOrder? = .error (.invalidState s) ∧ Lost graph s) := by
  have settled := search_settles graph
  unfold Graph.topOrder?
  generalize graph.search visit {} = outcome at settled ⊢
  obtain ⟨departures, error | _⟩ := outcome
  · obtain ⟨s, rfl, lost⟩ := settled
    exact .inr (.inr ⟨s, rfl, lost⟩)
  · change if departures.acyclic then Topological graph departures.left else graph.Cyclic at settled
    split at settled
    next acyclic => exact .inl ⟨_, by simp [acyclic], settled⟩
    next cyclic => exact .inr (.inl ⟨by simp [cyclic], settled⟩)

end Transducer.Departures
