import Transducer.Proofs.TopologicalRanks

/-! The trees of a whole search. A search tries the start and then every state as a root, and the tree of a root has the
states that are reached from it and from no root before it. The trees are finished one after the other, each with its
root last, so in a topological order they stand in blocks with the roots in front. -/

namespace Transducer
open Relation

variable {W V : Type}

/-- The roots of the trees, in the order in which they are discovered. -/
def treeRoots (heard : List (Event W)) : List StateId :=
  heard.filterMap fun
    | .discover s root => if s = root then some root else none
    | _ => none

theorem treeRoots_concat (heard : List (Event W)) (event : Event W) : treeRoots (heard ++ [event]) =
    treeRoots heard ++ match event with
      | .discover s root => if s = root then [root] else []
      | _ => [] := by
  cases event with
  | discover s root => by_cases same : s = root <;> simp [treeRoots, same]
  | _ => simp [treeRoots]

theorem mem_treeRoots {heard : List (Event W)} {root : StateId} :
    root ∈ treeRoots heard ↔ .discover root root ∈ heard := by
  rw [treeRoots, List.mem_filterMap]
  constructor
  · intro given
    obtain ⟨event, member, same⟩ := given
    cases event with
    | discover s other =>
      simp only [Option.ite_none_right_eq_some, Option.some.injEq] at same
      obtain ⟨rfl, rfl⟩ := same
      exact member
    | _ => cases same
  · exact fun member => ⟨_, member, by simp⟩

namespace Graph

variable {graph : Graph W} {root s t : StateId}

/-- The states in the order in which a search tries them as roots. -/
def candidates (graph : Graph W) : List StateId := graph.start.toList ++ List.range graph.size

def Reaches (graph : Graph W) (source target : StateId) : Prop := ReflTransGen graph.Edge source target

theorem WellFormed.reaches_lt (formed : graph.WellFormed) (path : graph.Reaches s t) (inside : s < graph.size) :
    t < graph.size := by
  induction path with
  | refl => exact inside
  | tail _ edge _ => exact formed.edge_target_lt edge

theorem WellFormed.candidate_lt (formed : graph.WellFormed) (member : s ∈ graph.candidates) : s < graph.size := by
  rcases List.mem_append.mp member with start | state
  · exact formed.start s (by simpa using start)
  · exact List.mem_range.mp state

/-- The root is the first candidate from which the state is reached. -/
def FirstReaching (graph : Graph W) (root s : StateId) : Prop :=
  ∃ before after, graph.candidates = before ++ root :: after ∧ graph.Reaches root s ∧
    ∀ r ∈ before, ¬ graph.Reaches r s

open Classical in
/-- The place among the candidates of the first one from which the state is reached. -/
noncomputable def seat (graph : Graph W) (s : StateId) : Nat :=
  graph.candidates.findIdx fun r => graph.Reaches r s

theorem seat_eq {before after : List StateId} (split : graph.candidates = before ++ root :: after)
    (reaches : graph.Reaches root s) (unreached : ∀ r ∈ before, ¬ graph.Reaches r s) :
    graph.seat s = before.length := by
  have inside : before.length < graph.candidates.length := by simp [split]
  rw [seat, List.findIdx_eq inside]
  refine ⟨by simpa [split] using reaches, fun i less => ?_⟩
  have bound : i < graph.candidates.length := Nat.lt_trans less inside
  have same : graph.candidates[i] = before[i] := by simp [split, List.getElem_append_left less]
  simpa [same] using unreached _ (List.getElem_mem less)

theorem firstReaching_iff : graph.FirstReaching root s ↔ graph.candidates[graph.seat s]? = some root := by
  constructor
  · intro given
    obtain ⟨before, after, split, reaches, unreached⟩ := given
    rw [seat_eq split reaches unreached, split, List.getElem?_append_right (Nat.le_refl _), Nat.sub_self]
    rfl
  · intro found
    obtain ⟨inside, rfl⟩ := List.getElem?_eq_some_iff.mp found
    refine ⟨graph.candidates.take (graph.seat s), graph.candidates.drop (graph.seat s + 1), ?_, ?_, fun r member => ?_⟩
    · rw [List.getElem_cons_drop, List.take_append_drop]
    · exact @of_decide_eq_true _ (Classical.propDecidable _) (List.findIdx_getElem (w := inside))
    · obtain ⟨i, bound, rfl⟩ := List.mem_iff_getElem.mp member
      have less : i < graph.seat s := by
        rw [List.length_take] at bound
        omega
      simpa using List.not_of_lt_findIdx less

theorem FirstReaching.unique {other : StateId} (first : graph.FirstReaching root s)
    (second : graph.FirstReaching other s) : root = other :=
  Option.some.inj ((firstReaching_iff.mp first).symm.trans (firstReaching_iff.mp second))

theorem FirstReaching.reaches (first : graph.FirstReaching root s) : graph.Reaches root s := by
  obtain ⟨_, _, _, reaches, _⟩ := first
  exact reaches

theorem FirstReaching.mem (first : graph.FirstReaching root s) : root ∈ graph.candidates := by
  obtain ⟨before, after, split, _⟩ := first
  simp [split]

theorem FirstReaching.lt (first : graph.FirstReaching root s) (formed : graph.WellFormed) : s < graph.size :=
  formed.reaches_lt first.reaches (formed.candidate_lt first.mem)

/-- A root has the same seat as all that it is the first to reach. -/
theorem FirstReaching.rooted (first : graph.FirstReaching root s) :
    graph.FirstReaching root root ∧ graph.seat root = graph.seat s := by
  obtain ⟨before, after, split, reaches, unreached⟩ := first
  have unrooted : ∀ r ∈ before, ¬ graph.Reaches r root := fun r member path => unreached r member (path.trans reaches)
  exact ⟨⟨before, after, split, .refl, unrooted⟩,
    (seat_eq split .refl unrooted).trans (seat_eq split reaches unreached).symm⟩

theorem FirstReaching.idxOf_eq (first : graph.FirstReaching root root) :
    graph.candidates.idxOf root = graph.seat root := by
  obtain ⟨before, after, split, reaches, unreached⟩ := first
  have absent : root ∉ before := fun member => unreached root member .refl
  rw [seat_eq split reaches unreached, split, List.idxOf_append_of_notMem absent, List.idxOf_cons_self, Nat.add_zero]

end Graph

namespace Search

variable {graph : Graph W} {search next : Search W} {heard : List (Event W)} {event : Event W} {tried : List StateId}
  {frame : Frame W} {outer : List (Frame W)} {s t root : StateId}

/-- The search has met this state. -/
def Seen (search : Search W) (s : StateId) : Prop :=
  search.colors[s]? = some .grey ∨ search.colors[s]? = some .black

theorem Seen.leave (seen : search.Seen s) (grey : search.colors[t]? = some .grey) : (search.leave t outer).Seen s := by
  rcases seen with on | left
  · by_cases same : s = t
    · exact .inr ((Departures.black_leave grey s).mpr (.inl same))
    · exact .inl (by simpa [Search.leave, Ne.symm same] using on)
  · exact .inr ((Departures.black_leave grey s).mpr (.inr left))

theorem Seen.enter (seen : search.Seen s) (white : search.colors[t]? = some .white) :
    (search.enter graph t).Seen s := by
  have other : t ≠ s := by
    rintro rfl
    rcases seen with on | left
    · cases white.symm.trans on
    · cases white.symm.trans left
  simpa [Seen, Search.enter, other] using seen

theorem seen_enter (white : search.colors[t]? = some .white) : (search.enter graph t).Seen t := by
  have bound := (Array.getElem?_eq_some_iff.mp white).1
  exact .inl (by simp [Search.enter, bound])

/-- The roots that are not yet exhausted, with the one of the path in front. -/
def waiting (search : Search W) : List StateId :=
  match search.path with
  | [] => search.roots
  | _ :: _ => search.root :: search.roots

theorem waiting_idle (path : search.path = []) : search.waiting = search.roots := by
  simp only [waiting, path]

theorem waiting_busy (path : search.path = frame :: outer) : search.waiting = search.root :: search.roots := by
  simp only [waiting, path]

/-- Everything on the path is reached from its root. -/
theorem Recounts.reaches_of_root (recounts : Recounts graph heard search) (path : search.path = frame :: outer)
    (member : s ∈ (frame :: outer).map Frame.state) : graph.Reaches search.root s := by
  have linked : ((frame :: outer).map Frame.state).IsChain fun inner outer => graph.Edge outer inner :=
    (List.isChain_map Frame.state).mpr (path ▸ recounts.valid.linked)
  have last := recounts.root_of_path path
  obtain ⟨inner, rest, split⟩ := List.append_of_mem member
  rw [split] at linked last
  have final : (s :: rest).getLast? = some search.root := by
    rwa [List.getLast?_append_of_ne_nil _ (List.cons_ne_nil s rest)] at last
  exact reaches_of_isChain linked.right_of_append (List.mem_of_getLast? final)

/-- With nothing on the path, all that is reached from a black state is black. -/
theorem Recounts.black_of_reaches (recounts : Recounts graph heard search) (path : search.path = [])
    (met : ∀ s, ∀ arc ∈ reportsFrom s heard, search.Seen arc.target) (black : search.colors[s]? = some .black)
    (reaches : graph.Reaches s t) : search.colors[t]? = some .black := by
  induction reaches with
  | refl => exact black
  | @tail s t _ edge ih =>
    obtain ⟨arc, member, rfl⟩ := edge
    rw [← recounts.explored s ((recounts.finished s).mpr ih)] at member
    rcases met s arc member with grey | black
    · have inside := (recounts.valid.grey _).mp grey
      rw [path] at inside
      cases inside
    · exact black

/-- How far the forest has grown when some candidates have been tried as roots. -/
structure Grows (graph : Graph W) (heard : List (Event W)) (search : Search W) (tried : List StateId) : Prop where
  keeps : Keeps graph heard search
  split : graph.candidates = tried ++ search.waiting
  exhausted : ∀ r ∈ tried, ∀ s, graph.Reaches r s → search.colors[s]? = some .black
  met : ∀ s, ∀ arc ∈ reportsFrom s heard, search.Seen arc.target
  first : ∀ s root, .discover s root ∈ heard → graph.FirstReaching root s
  bound : ∀ s ∈ discoveries heard, graph.seat s ≤ tried.length
  ordered : (treeRoots heard).Pairwise fun a b => graph.seat a < graph.seat b
  /-- A root is finished after all other states of its tree. -/
  left : (finishes heard).Pairwise fun a b => graph.seat a ≤ graph.seat b ∧ ¬ graph.FirstReaching a b

theorem begin_grows (graph : Graph W) : Grows graph [] (begin graph) [] where
  keeps := begin_keeps graph
  split := rfl
  exhausted _ member := by cases member
  met _ _ member := by cases member
  first _ _ member := by cases member
  bound _ member := by cases member
  ordered := .nil
  left := .nil

namespace Grows

/-- The tree that grows is that of the root of the path. -/
theorem first_of_path (grows : Grows graph heard search tried) (path : search.path = frame :: outer)
    (member : s ∈ (frame :: outer).map Frame.state) :
    graph.FirstReaching search.root s ∧ graph.seat s = tried.length := by
  have split : graph.candidates = tried ++ search.root :: search.roots := waiting_busy path ▸ grows.split
  have reaches := grows.keeps.recounts.reaches_of_root path member
  have unreached : ∀ r ∈ tried, ¬ graph.Reaches r s := by
    intro r early other
    have grey := (grows.keeps.recounts.valid.grey s).mpr (path ▸ member)
    cases grey.symm.trans (grows.exhausted r early s other)
  exact ⟨⟨tried, search.roots, split, reaches, unreached⟩, Graph.seat_eq split reaches unreached⟩

theorem pass (grows : Grows graph heard search tried) (moves : Moves graph search (.pass next)) :
    ∃ tried, Grows graph heard next tried := by
  have keeps := grows.keeps.pass moves
  cases moves with
  | @newRoot root roots path running rest white =>
    have split : graph.candidates = tried ++ root :: roots := by
      rw [grows.split, waiting_idle path, rest]
    have unmet : ({ search with roots, root } : Search W).colors[root]? = some .white := white
    refine ⟨tried, { grows with keeps, split, exhausted := ?_, met := ?_ }⟩
    · exact fun r member s reaches => (Departures.black_enter unmet s).mpr (grows.exhausted r member s reaches)
    · exact fun s arc member => Seen.enter (grows.met s arc member) unmet
  | @oldRoot root roots color path running rest seen other =>
    have black : search.colors[root]? = some .black := by
      cases color with
      | white => exact absurd rfl other
      | grey =>
        have inside := (grows.keeps.recounts.valid.grey root).mp seen
        rw [path] at inside
        cases inside
      | black => exact seen
    have split : graph.candidates = tried ++ [root] ++ roots := by
      rw [grows.split, waiting_idle path, rest, List.append_assoc, List.singleton_append]
    refine ⟨tried ++ [root], { grows with keeps, split := ?_, exhausted := ?_, bound := ?_ }⟩
    · simpa only [waiting, path] using split
    · intro r member s reaches
      rcases List.mem_append.mp member with early | last
      · exact grows.exhausted r early s reaches
      · obtain rfl := List.mem_singleton.mp last
        exact grows.keeps.recounts.black_of_reaches path grows.met black reaches
    · intro s discovered
      rw [List.length_append]
      exact Nat.le_add_right_of_le (grows.bound s discovered)

theorem discover (grows : Grows graph heard search tried) (path : search.path = frame :: outer)
    (entering : search.entering = true)
    (keeps : Keeps graph (heard ++ [.discover frame.state search.root])
      { search with entering := false, running := true }) :
    Grows graph (heard ++ [.discover frame.state search.root])
      { search with entering := false, running := true } tried := by
  obtain ⟨first, seat⟩ := grows.first_of_path path List.mem_cons_self
  constructor
  case keeps => exact keeps
  case split => exact grows.split
  case exhausted => exact grows.exhausted
  case met =>
    intro s
    rw [reportsFrom_of_silent rfl]
    exact grows.met s
  case first =>
    intro s root member
    rcases List.mem_append.mp member with early | last
    · exact grows.first s root early
    · cases List.mem_singleton.mp last
      exact first
  case bound =>
    intro s member
    rw [discoveries_append, discoveries_singleton] at member
    rcases List.mem_append.mp member with early | last
    · exact grows.bound s early
    · obtain rfl : s = frame.state := by simpa [Event.discovered?] using last
      exact Nat.le_of_eq seat
  case ordered =>
    rw [treeRoots_concat]
    by_cases root : frame.state = search.root
    · -- The candidate at the next place is a root only now, so the roots so far have places before it.
      simp only [root, if_true]
      refine List.pairwise_append.mpr ⟨grows.ordered, List.pairwise_singleton _ _, fun other early last member => ?_⟩
      obtain rfl := List.mem_singleton.mp member
      have discovered : .discover other other ∈ heard := mem_treeRoots.mp early
      have bound := grows.bound other (mem_discoveries_iff.mpr ⟨other, discovered⟩)
      have different : graph.seat other ≠ tried.length := by
        intro same
        have known := Graph.firstReaching_iff.mp (grows.first other other discovered)
        rw [same, ← seat] at known
        have equal : search.root = other := Option.some.inj ((Graph.firstReaching_iff.mp first).symm.trans known)
        have fresh := grows.keeps.recounts.fresh_of_entering path entering
        exact fresh (root ▸ equal ▸ mem_discoveries_iff.mpr ⟨other, discovered⟩)
      rw [← root, seat]
      omega
    · simpa [root] using grows.ordered
  case left => simpa [Event.finished?] using grows.left

/-- An event about an arc is of no matter but for its target, which the search has met by then. -/
theorem report {arc : Arc W} {source : StateId} (grows : Grows graph heard search tried)
    (about : event.report? = some (source, arc)) (keeps : Keeps graph (heard ++ [event]) next)
    (split : next.waiting = search.waiting)
    (black : ∀ s : StateId, search.colors[s]? = some .black → next.colors[s]? = some .black)
    (seen : ∀ s, search.Seen s → next.Seen s) (target : next.Seen arc.target) :
    Grows graph (heard ++ [event]) next tried := by
  have undiscovered : event.discovered? = none := by cases event <;> simp_all [Event.report?, Event.discovered?]
  have unfinished : event.finished? = none := by cases event <;> simp_all [Event.report?, Event.finished?]
  have unrooted : treeRoots (heard ++ [event]) = treeRoots heard := by
    cases event <;> simp_all [treeRoots_concat, Event.report?]
  constructor
  case keeps => exact keeps
  case split => rw [split, grows.split]
  case exhausted => exact fun r member s reaches => black s (grows.exhausted r member s reaches)
  case met =>
    intro s other member
    rw [reportsFrom_concat about] at member
    rcases List.mem_append.mp member with early | last
    · exact seen _ (grows.met s other early)
    · obtain rfl : other = arc := by
        split at last
        · exact List.mem_singleton.mp last
        · cases last
      exact target
  case first =>
    intro s root member
    rcases List.mem_append.mp member with early | last
    · exact grows.first s root early
    · rw [← List.mem_singleton.mp last] at undiscovered
      cases undiscovered
  case bound => simpa [undiscovered] using grows.bound
  case ordered => exact unrooted ▸ grows.ordered
  case left => simpa [unfinished] using grows.left

theorem ask {next : Bool → Search W} (grows : Grows graph heard search tried)
    (moves : Moves graph search (.ask event next)) : Grows graph (heard ++ [event]) (next true) tried := by
  have keeps := grows.keeps.ask moves
  cases moves with
  | discover path entering => exact grows.discover path entering keeps
  | @tree frame outer arc pending path entered running rest white =>
    have unmet : ({ search with path := { frame with pending } :: outer } : Search W).colors[arc.target]? =
        some .white := white
    refine grows.report rfl keeps (by rw [waiting_busy path]; rfl) ?_ (fun s seen => ?_) (seen_enter unmet)
    · exact fun s => (Departures.black_enter unmet s).mpr
    · exact Seen.enter seen unmet
  | back path entered running rest grey =>
    exact grows.report rfl keeps (by rw [waiting_busy path]; rfl) (fun _ => id) (fun _ => id) (.inl grey)
  | cross path entered running rest black =>
    exact grows.report rfl keeps (by rw [waiting_busy path]; rfl) (fun _ => id) (fun _ => id) (.inr black)

/-- The innermost state is finished, and its tree with it if it is the root. -/
theorem finish {more : List StateId} (grows : Grows graph heard search tried) (path : search.path = frame :: outer)
    (keeps : Keeps graph (heard ++ [.finish frame.state (outer.head?.map Frame.state)])
      (search.leave frame.state outer))
    (longer : tried <+: more) (split : graph.candidates = more ++ (search.leave frame.state outer).waiting)
    (exhausted : (∀ s, ∀ arc ∈ reportsFrom s heard, (search.leave frame.state outer).Seen arc.target) →
      ∀ r ∈ more, r ∉ tried → ∀ s, graph.Reaches r s →
        (search.leave frame.state outer).colors[s]? = some .black) :
    Grows graph (heard ++ [.finish frame.state (outer.head?.map Frame.state)]) (search.leave frame.state outer)
      more := by
  have recounts := grows.keeps.recounts
  obtain ⟨first, seat⟩ := grows.first_of_path path List.mem_cons_self
  have grey := recounts.grey path
  have met (s : StateId) (arc : Arc W) (member : arc ∈ reportsFrom s heard) :
      (search.leave frame.state outer).Seen arc.target := (grows.met s arc member).leave grey
  constructor
  case keeps => exact keeps
  case split => exact split
  case exhausted =>
    intro r member s reaches
    by_cases early : r ∈ tried
    · exact (Departures.black_leave grey s).mpr (.inr (grows.exhausted r early s reaches))
    · exact exhausted met r member early s reaches
  case met =>
    intro s
    rw [reportsFrom_of_silent rfl]
    exact met s
  case first => exact fun s root member => grows.first s root (by simpa using member)
  case bound =>
    intro s member
    exact Nat.le_trans (grows.bound s (by simpa [Event.discovered?] using member)) longer.length_le
  case ordered => simpa [treeRoots_concat] using grows.ordered
  case left =>
    rw [finishes_append, finishes_singleton]
    refine List.pairwise_append.mpr ⟨grows.left, List.pairwise_singleton _ _, fun other early last member => ?_⟩
    obtain rfl : last = frame.state := by simpa [Event.finished?] using member
    refine ⟨seat ▸ grows.bound other (recounts.closed early), fun earlier => ?_⟩
    -- The root is still on the path, so it is not among the states finished so far.
    obtain rfl := earlier.unique first
    have inside := path ▸ List.mem_of_getLast? (recounts.root_of_path path)
    exact recounts.not_mem_finishes ((recounts.valid.grey _).mpr inside) (by simp) early

theorem tell (grows : Grows graph heard search tried) (moves : Moves graph search (.tell event next)) :
    ∃ tried, Grows graph (heard ++ [event]) next tried := by
  have keeps := grows.keeps.tell moves
  cases moves with
  | @finish frame outer path entered explored =>
    have recounts := grows.keeps.recounts
    have split : graph.candidates = tried ++ search.root :: search.roots := waiting_busy path ▸ grows.split
    cases outer with
    | nil =>
      have root : search.root = frame.state := by simpa using (recounts.root_of_path path).symm
      refine ⟨tried ++ [search.root], grows.finish path keeps (List.prefix_append _ _) ?_ fun met r member late s => ?_⟩
      · simpa [waiting, Search.leave] using split
      · obtain rfl : r = search.root := by simpa [late] using member
        have black : (search.leave frame.state []).colors[frame.state]? = some .black :=
          (Departures.black_leave (recounts.grey path) frame.state).mpr (.inl rfl)
        refine keeps.recounts.black_of_reaches rfl (fun s => ?_) (root ▸ black)
        rw [reportsFrom_of_silent rfl]
        exact met s
    | cons next outer =>
      exact ⟨tried, grows.finish path keeps (List.prefix_refl _) split fun _ r member late => absurd member late⟩

end Grows

end Search

/-- The forest of a whole search. -/
structure Forest (graph : Graph W) (heard : List (Event W)) : Prop where
  found : ∀ s root, .discover s root ∈ heard ↔ graph.FirstReaching root s
  ordered : (treeRoots heard).Pairwise fun a b => graph.seat a < graph.seat b
  left : (finishes heard).Pairwise fun a b => graph.seat a ≤ graph.seat b ∧ ¬ graph.FirstReaching a b

namespace Search

variable {graph : Graph W} {search : Search W} {heard : List (Event W)} {tried : List StateId}

theorem Grows.forest (formed : graph.WellFormed) (grows : Grows graph heard search tried)
    (moves : Moves graph search .stop) : Forest graph (heard ++ [.done]) := by
  have recounts := grows.keeps.recounts
  cases moves with
  | done path ended =>
    refine ⟨fun s root => ⟨fun member => ?_, fun first => ?_⟩, ?_, ?_⟩
    · exact grows.first s root (by simpa using member)
    · have black := recounts.valid.black_of_done path (ended recounts.running) (first.lt formed)
      have discovered := recounts.closed ((recounts.finished s).mpr black)
      obtain ⟨other, member⟩ := mem_discoveries_iff.mp discovered
      obtain rfl := (grows.first s other member).unique first
      exact List.mem_append_left _ member
    · simpa [treeRoots_concat] using grows.ordered
    · simpa [Event.finished?] using grows.left

end Search

namespace Graph

variable {graph : Graph W} {root s t : StateId}

theorem WellFormed.forest (formed : graph.WellFormed) : Forest graph graph.tour := by
  let kept (state : Unit × List (Event W)) (search : Search W) : Prop := ∃ tried, search.Grows graph state.2 tried
  let ended (outcome : (Unit × List (Event W)) × Except GraphError Unit) : Prop :=
    outcome.2 = .ok () → Forest graph outcome.1.2
  suffices recorded : ended (graph.search (recording fun _ _ => ((), true)) ((), [])) from
    recorded (search_ok formed _ _)
  apply @Search.run_satisfies _ _ _ _ kept
  case holds => exact ⟨[], Search.begin_grows graph⟩
  case pass => exact fun _ _ _ ⟨_, grows⟩ moves => grows.pass moves
  case ask => exact fun _ _ _ _ ⟨tried, grows⟩ moves => ⟨tried, grows.ask moves⟩
  case tell => exact fun _ _ _ _ ⟨_, grows⟩ moves => grows.tell moves
  case fail => exact fun _ _ _ _ _ => nofun
  case stop => exact fun _ _ ⟨_, grows⟩ moves _ => grows.forest formed moves

/-- What a root reaches belongs to its tree or to an earlier one. -/
theorem FirstReaching.seat_le (first : graph.FirstReaching root root) (reaches : graph.Reaches root s) :
    graph.seat s ≤ graph.seat root := by
  by_contra later
  obtain ⟨inside, same⟩ := List.getElem?_eq_some_iff.mp (firstReaching_iff.mp first)
  have unreached := List.not_of_lt_findIdx (Nat.lt_of_not_le later)
  simp only [same, decide_eq_false_iff_not] at unreached
  exact unreached reaches

theorem exists_firstReaching (member : root ∈ graph.candidates) (reaches : graph.Reaches root s) :
    ∃ first, graph.FirstReaching first s := by
  have inside : graph.seat s < graph.candidates.length :=
    List.findIdx_lt_length_of_exists ⟨root, member, by simpa using reaches⟩
  exact ⟨_, firstReaching_iff.mpr (List.getElem?_eq_getElem inside)⟩

theorem firstReaching_start {start : StateId} (first : graph.start = some start) : graph.FirstReaching start start :=
  ⟨[], List.range graph.size, by rw [candidates, first]; rfl, .refl, by simp⟩

theorem exists_root (inside : s < graph.size) : ∃ root, graph.FirstReaching root s :=
  exists_firstReaching (List.mem_append_right _ (List.mem_range.mpr inside)) .refl

/-- The start is tried first. -/
theorem seat_eq_zero_iff {start : StateId} (first : graph.start = some start) :
    graph.seat s = 0 ↔ graph.Reaches start s := by
  have split : graph.candidates = [] ++ start :: List.range graph.size := by rw [candidates, first]; rfl
  constructor
  · intro front
    have found : graph.FirstReaching start s := firstReaching_iff.mpr (by rw [front, split]; rfl)
    exact found.reaches
  · exact fun reaches => seat_eq split reaches (by simp)

end Graph

namespace Forest

variable {graph : Graph W} {heard : List (Event W)} {root first s : StateId} {before after : List StateId}

theorem mem_roots (forest : Forest graph heard) : root ∈ treeRoots heard ↔ graph.FirstReaching root root :=
  mem_treeRoots.trans (forest.found root root)

theorem ordered_idxOf (forest : Forest graph heard) :
    (treeRoots heard).Pairwise fun a b => graph.candidates.idxOf a < graph.candidates.idxOf b := by
  refine forest.ordered.imp_of_mem fun first second less => ?_
  rwa [(forest.mem_roots.mp first).idxOf_eq, (forest.mem_roots.mp second).idxOf_eq]

/-- The root of a state comes before another root, or is this root, or comes after it. -/
theorem root_cases (forest : Forest graph heard) (split : treeRoots heard = before ++ root :: after)
    (known : graph.FirstReaching first s) :
    (first ∈ before ∧ graph.seat s < graph.seat root) ∨ first = root ∨ graph.seat root < graph.seat s := by
  obtain ⟨rooted, same⟩ := known.rooted
  have ordered := forest.ordered
  rw [split, List.pairwise_append, List.pairwise_cons] at ordered
  have member := forest.mem_roots.mpr rooted
  rw [split, List.mem_append, List.mem_cons] at member
  rcases member with early | own | late
  · exact .inl ⟨early, same ▸ ordered.2.2 first early root List.mem_cons_self⟩
  · exact .inr (.inl own)
  · exact .inr (.inr (same ▸ ordered.2.1.1 first late))

theorem seat_lt_of_mem (forest : Forest graph heard) (split : treeRoots heard = before ++ root :: after)
    (member : first ∈ before) : graph.seat first < graph.seat root := by
  have ordered := forest.ordered
  rw [split, List.pairwise_append] at ordered
  exact ordered.2.2 first member root List.mem_cons_self

theorem root_of_split (forest : Forest graph heard) (split : treeRoots heard = before ++ root :: after) :
    graph.FirstReaching root root :=
  forest.mem_roots.mp (by simp [split])

theorem root_of_before (forest : Forest graph heard) (split : treeRoots heard = before ++ root :: after)
    (member : first ∈ before) : graph.FirstReaching first first :=
  forest.mem_roots.mp (by simp [split, member])

/-- A tree has what is reached from its root and from no earlier one. -/
theorem tree (forest : Forest graph heard) (split : treeRoots heard = before ++ root :: after) :
    .discover s root ∈ heard ↔ graph.Reaches root s ∧ ∀ r ∈ before, ¬ graph.Reaches r s := by
  rw [forest.found]
  constructor
  · intro own
    refine ⟨own.reaches, fun r member reaches => ?_⟩
    have bound := (forest.root_of_before split member).seat_le reaches
    exact Nat.not_lt.mpr (own.rooted.2 ▸ bound) (forest.seat_lt_of_mem split member)
  · intro given
    obtain ⟨reaches, unreached⟩ := given
    have rooted := forest.root_of_split split
    obtain ⟨first, known⟩ := Graph.exists_firstReaching rooted.mem reaches
    rcases forest.root_cases split known with ⟨early, _⟩ | rfl | later
    · exact absurd known.reaches (unreached first early)
    · exact known
    · exact absurd (rooted.seat_le reaches) (Nat.not_le.mpr later)

/-- A tree has what comes no later than its root and later than all earlier ones. -/
theorem block (forest : Forest graph heard) (split : treeRoots heard = before ++ root :: after)
    (inside : s < graph.size) :
    .discover s root ∈ heard ↔ graph.seat s ≤ graph.seat root ∧ ∀ r ∈ before, graph.seat r < graph.seat s := by
  rw [forest.found]
  constructor
  · intro own
    have same := own.rooted.2
    exact ⟨same.ge, fun r member => same ▸ forest.seat_lt_of_mem split member⟩
  · intro given
    obtain ⟨bound, above⟩ := given
    obtain ⟨first, known⟩ := Graph.exists_root inside
    rcases forest.root_cases split known with ⟨early, _⟩ | rfl | later
    · exact absurd (known.rooted.2 ▸ above first early) (Nat.lt_irrefl _)
    · exact known
    · exact absurd bound (Nat.not_le.mpr later)

end Forest

namespace Graph

variable {graph : Graph W} {root s : StateId}

/-- A root has no higher rank than a state if and only if the state is in its tree or in an earlier one. -/
theorem WellFormed.idxOf_le_iff (formed : graph.WellFormed) (topological : Departures.Topological graph graph.departed)
    (rooted : graph.FirstReaching root root) (inside : s < graph.size) :
    graph.departed.idxOf root ≤ graph.departed.idxOf s ↔ graph.seat s ≤ graph.seat root := by
  have ordered : graph.departed.Pairwise fun a b => graph.seat b ≤ graph.seat a ∧ ¬ graph.FirstReaching b a :=
    List.pairwise_reverse.mpr formed.forest.left
  have before {a b : StateId} (first : a < graph.size) (second : b < graph.size)
      (less : graph.departed.idxOf a < graph.departed.idxOf b) :
      graph.seat b ≤ graph.seat a ∧ ¬ graph.FirstReaching b a := by
    have bound := List.idxOf_lt_length_of_mem ((topological.member b).mpr second)
    simpa using List.pairwise_iff_getElem.mp ordered _ _ (Nat.lt_trans less bound) bound less
  constructor
  · intro bound
    rcases Nat.lt_or_eq_of_le bound with less | same
    · exact (before (rooted.lt formed) inside less).1
    · rw [(List.idxOf_inj ((topological.member root).mpr (rooted.lt formed))).mp same]
  · intro bound
    by_contra late
    obtain ⟨back, other⟩ := before inside (rooted.lt formed) (Nat.lt_of_not_le late)
    apply other
    rw [firstReaching_iff, Nat.le_antisymm bound back]
    exact firstReaching_iff.mp rooted

/-- The candidates are the start and then the states that a word counts. The root of a state is the first candidate that
reaches it, so the roots come in the order of the candidates, and a tree has what is reached from its root and from no
earlier root. In a topological order the trees stand in blocks, the
last tree in front and each root at the front of its block, so the states reached from the start come last. -/
theorem search_forest {visit : V → Event W → V × Bool} {visitor : V} (counted : graph.Counted)
    (formed : graph.WellFormed) (agrees : Agrees visit visitor (graph.events visit visitor)) :
    graph.candidates = graph.start.toList ++ graph.ids ∧
    (∀ s root, .discover s root ∈ graph.events visit visitor ↔ graph.FirstReaching root s) ∧
    ((treeRoots (graph.events visit visitor)).Pairwise fun a b =>
      graph.candidates.idxOf a < graph.candidates.idxOf b) ∧
    (∀ before root after, treeRoots (graph.events visit visitor) = before ++ root :: after → ∀ s,
      .discover s root ∈ graph.events visit visitor ↔ graph.Reaches root s ∧ ∀ r ∈ before, ¬ graph.Reaches r s) ∧
    (¬ graph.Cyclic → ∃ order, graph.topOrder? = .ok (some order) ∧
      (∀ before root after, treeRoots (graph.events visit visitor) = before ++ root :: after → ∀ s < graph.size,
        (.discover s root ∈ graph.events visit visitor ↔
          placing order root ≤ placing order s ∧ ∀ r ∈ before, placing order s < placing order r)) ∧
      ∀ start, graph.start = some start → ∀ s < graph.size,
        (graph.Reaches start s ↔ placing order start ≤ placing order s)) := by
  rw [formed.events_eq_tour agrees]
  have forest := formed.forest
  refine ⟨?_, forest.found, forest.ordered_idxOf, fun before root after split s => forest.tree split,
    fun acyclic => ?_⟩
  · rw [counted.ids_eq, candidates]
  have found := formed.topOrder?_of_acyclic acyclic
  have topological := (topOrder?_eq_some found).2.1
  have rank {s : StateId} (inside : s < graph.size) :
      placing (Departures.ranks graph.departed) s = graph.departed.idxOf s := by
    rw [placing, topological.ranks_getElem? inside, Option.getD_some]
  refine ⟨_, found, fun before root after split s inside => ?_, fun start first s inside => ?_⟩
  · have rooted := forest.root_of_split split
    have later (r : StateId) (member : r ∈ before) : placing (Departures.ranks graph.departed) s <
        placing (Departures.ranks graph.departed) r ↔ graph.seat r < graph.seat s := by
      have early := forest.root_of_before split member
      rw [rank inside, rank (early.lt formed), ← Nat.not_le, formed.idxOf_le_iff topological early inside, Nat.not_le]
    have own : placing (Departures.ranks graph.departed) root ≤ placing (Departures.ranks graph.departed) s ↔
        graph.seat s ≤ graph.seat root := by
      rw [rank (rooted.lt formed), rank inside, formed.idxOf_le_iff topological rooted inside]
    exact (forest.block split inside).trans (and_congr own (forall₂_congr later)).symm
  · have rooted := firstReaching_start first
    rw [rank (formed.start start first), rank inside, formed.idxOf_le_iff topological rooted inside,
      (seat_eq_zero_iff first).mpr .refl, Nat.le_zero, seat_eq_zero_iff first]

theorem chains_forest :
    (treeRoots (chains.events (fun count (_ : Event Unit) => (count + 1, true)) 0)).Pairwise
      (fun a b => chains.candidates.idxOf a < chains.candidates.idxOf b) ∧
    ∃ order, chains.topOrder? = .ok (some order) ∧
      ∀ s < 4, (chains.Reaches 2 s ↔ placing order 2 ≤ placing order s) := by
  have agrees (heard : List (Event Unit)) : Agrees (fun count (_ : Event Unit) => (count + 1, true)) 0 heard :=
    agrees_of_always (fun _ _ _ => rfl) 0 heard
  obtain ⟨_, _, ordered, _, acyclic⟩ := search_forest (by decide) chains_wellFormed (agrees _)
  obtain ⟨order, found, _, start⟩ := acyclic chains_not_cyclic
  exact ⟨ordered, order, found, start 2 rfl⟩

end Graph

end Transducer
