import Mathlib.Data.List.Chain
import Transducer.Graph.Search
import Transducer.Proofs.GraphPaths

/-! What holds at every moment of a search, whatever the visitor answers. The grey states are those on
the path, the path follows arcs of the graph, and no white state drops out of the roots to be tried. The
graph may be any graph, also one whose arcs lead nowhere. -/

namespace Transducer.Search
open Relation

variable {W : Type} {graph : Graph W} {search next : Search W}

/-- The steps of a search by what it finds in its path, its roots and its colors. -/
inductive Moves (graph : Graph W) (search : Search W) : Step W → Prop where
  | lostRoot {root : StateId} {roots : List StateId} (path : search.path = []) (running : search.running = true)
      (rest : search.roots = root :: roots) (outside : search.colors[root]? = none) :
      Moves graph search (.fail root)
  | newRoot {root : StateId} {roots : List StateId} (path : search.path = []) (running : search.running = true)
      (rest : search.roots = root :: roots) (white : search.colors[root]? = some .white) :
      Moves graph search (.pass ({ search with roots, root }.enter graph root))
  | oldRoot {root : StateId} {roots : List StateId} {color : Color} (path : search.path = [])
      (running : search.running = true) (rest : search.roots = root :: roots)
      (seen : search.colors[root]? = some color) (color_ne : color ≠ .white) :
      Moves graph search (.pass { search with roots })
  | done (path : search.path = []) (ended : search.running = true → search.roots = []) :
      Moves graph search .stop
  | discover {frame : Frame W} {outer : List (Frame W)} (path : search.path = frame :: outer)
      (entering : search.entering = true) :
      Moves graph search
        (.ask (.discover frame.state search.root) fun answer => { search with entering := false, running := answer })
  | lostTarget {frame : Frame W} {outer : List (Frame W)} {arc : Arc W} {pending : List (Arc W)}
      (path : search.path = frame :: outer) (entering : search.entering = false) (running : search.running = true)
      (rest : frame.pending = arc :: pending) (outside : search.colors[arc.target]? = none) :
      Moves graph search (.fail arc.target)
  | tree {frame : Frame W} {outer : List (Frame W)} {arc : Arc W} {pending : List (Arc W)}
      (path : search.path = frame :: outer) (entering : search.entering = false) (running : search.running = true)
      (rest : frame.pending = arc :: pending) (white : search.colors[arc.target]? = some .white) :
      Moves graph search (.ask (.treeArc frame.state arc) fun answer =>
        if answer then { search with path := { frame with pending } :: outer }.enter graph arc.target
        else { search with path := { frame with pending } :: outer, running := false })
  | back {frame : Frame W} {outer : List (Frame W)} {arc : Arc W} {pending : List (Arc W)}
      (path : search.path = frame :: outer) (entering : search.entering = false) (running : search.running = true)
      (rest : frame.pending = arc :: pending) (grey : search.colors[arc.target]? = some .grey) :
      Moves graph search (.ask (.backArc frame.state arc) fun answer =>
        { search with path := { frame with pending } :: outer, running := answer })
  | cross {frame : Frame W} {outer : List (Frame W)} {arc : Arc W} {pending : List (Arc W)}
      (path : search.path = frame :: outer) (entering : search.entering = false) (running : search.running = true)
      (rest : frame.pending = arc :: pending) (black : search.colors[arc.target]? = some .black) :
      Moves graph search (.ask (.crossArc frame.state arc) fun answer =>
        { search with path := { frame with pending } :: outer, running := answer })
  | finish {frame : Frame W} {outer : List (Frame W)} (path : search.path = frame :: outer)
      (entering : search.entering = false) (explored : search.running = true → frame.pending = []) :
      Moves graph search
        (.tell (.finish frame.state (outer.head?.map Frame.state)) (search.leave frame.state outer))

theorem step_moves (graph : Graph W) (search : Search W) : Moves graph search (search.step graph) := by
  unfold step
  split
  next path =>
    split
    next root roots running rest =>
      split
      next outside => exact .lostRoot path running rest outside
      next white => exact .newRoot path running rest white
      next color other seen => exact .oldRoot path running rest seen fun white => other (white ▸ rfl)
    next ended =>
      refine .done path fun running => ?_
      cases rest : search.roots with
      | nil => rfl
      | cons root roots => exact absurd rest (ended root roots running)
  next frame outer path =>
    split
    next entering => exact .discover path entering
    next entered =>
      have entering : search.entering = false := Bool.eq_false_iff.mpr entered
      split
      next arc pending running rest =>
        unfold follow
        split
        next outside => exact .lostTarget path entering running rest outside
        next white => exact .tree path entering running rest white
        next grey => exact .back path entering running rest grey
        next black => exact .cross path entering running rest black
      next exhausted =>
        refine .finish path entering fun running => ?_
        cases rest : frame.pending with
        | nil => rfl
        | cons arc pending => exact absurd rest (exhausted arc pending running)

/-- The path leads from the root to the innermost state. -/
def Linked (graph : Graph W) (path : List (Frame W)) : Prop :=
  path.IsChain fun inner outer => graph.Edge outer.state inner.state

/-- What stands first is reached from all that follow. -/
theorem reaches_of_isChain {α : Type} {relation : α → α → Prop} {first : α} {rest : List α}
    (linked : (first :: rest).IsChain fun inner outer => relation outer inner) {other : α}
    (member : other ∈ first :: rest) : ReflTransGen relation other first := by
  induction rest generalizing first with
  | nil => simp_all [ReflTransGen.refl]
  | cons next rest ih =>
    obtain ⟨edge, linked⟩ := List.isChain_cons_cons.mp linked
    rcases List.mem_cons.mp member with rfl | inside
    · exact .refl
    · exact (ih linked inside).tail edge

theorem Linked.reaches {frame : Frame W} {outer : List (Frame W)} (linked : Linked graph (frame :: outer))
    {s : StateId} (member : s ∈ (frame :: outer).map Frame.state) : ReflTransGen graph.Edge s frame.state := by
  have states : ((frame :: outer).map Frame.state).IsChain fun inner outer => graph.Edge outer inner :=
    (List.isChain_map Frame.state).mpr linked
  exact reaches_of_isChain states member

structure Valid (graph : Graph W) (search : Search W) : Prop where
  sized : search.colors.size = graph.size
  grey : ∀ s, search.colors[s]? = some .grey ↔ s ∈ search.path.map Frame.state
  distinct : (search.path.map Frame.state).Nodup
  linked : Linked graph search.path
  pending : ∀ frame ∈ search.path, frame.pending <:+ graph.arcsFrom frame.state
  roots : search.roots <:+ graph.start.toList ++ List.range graph.size
  unseen : ∀ s, search.colors[s]? = some .white → s ∈ search.roots
  /-- A state is entered only while the visitor goes along. -/
  entering : search.entering = true → search.running = true

theorem begin_valid (graph : Graph W) : (begin graph).Valid graph where
  sized := by simp [begin]
  grey s := by simp [begin, Array.getElem?_replicate]
  distinct := by simp [begin]
  linked := .nil
  pending := by simp [begin]
  roots := List.suffix_refl _
  unseen s white := by
    have inside := (Array.getElem?_eq_some_iff.mp white).1
    simp only [begin, Array.size_replicate] at inside
    simp [begin, inside]
  entering := by simp [begin]

theorem Valid.carry (valid : search.Valid graph) (colors : next.colors = search.colors)
    (path : next.path = search.path) (roots : next.roots = search.roots)
    (entering : next.entering = true → next.running = true) : next.Valid graph := by
  constructor
  case sized => exact colors ▸ valid.sized
  case grey => exact colors ▸ path ▸ valid.grey
  case distinct => exact path ▸ valid.distinct
  case linked => exact path ▸ valid.linked
  case pending => exact path ▸ valid.pending
  case roots => exact roots ▸ valid.roots
  case unseen => exact colors ▸ roots ▸ valid.unseen
  case entering => exact entering

/-- A root that is not white need not be tried again. -/
theorem Valid.dropRoot {root : StateId} {roots : List StateId} (valid : search.Valid graph)
    (rest : search.roots = root :: roots) (seen : search.colors[root]? ≠ some .white) :
    { search with roots }.Valid graph where
  sized := valid.sized
  grey := valid.grey
  distinct := valid.distinct
  linked := valid.linked
  pending := valid.pending
  roots := (List.suffix_cons root roots).trans (rest ▸ valid.roots)
  unseen s white := by
    have member : s ∈ root :: roots := rest ▸ valid.unseen s white
    rcases List.mem_cons.mp member with rfl | inside
    · exact absurd white seen
    · exact inside
  entering := valid.entering

theorem Valid.passArc {frame : Frame W} {outer : List (Frame W)} {arc : Arc W} {pending : List (Arc W)}
    (valid : search.Valid graph) (path : search.path = frame :: outer) (rest : frame.pending = arc :: pending) :
    { search with path := { frame with pending } :: outer }.Valid graph := by
  have states : ({ frame with pending } :: outer).map Frame.state = search.path.map Frame.state := by
    simp [path]
  have linked := path ▸ valid.linked
  constructor
  case sized => exact valid.sized
  case grey => exact states ▸ valid.grey
  case distinct => exact states ▸ valid.distinct
  case linked =>
    cases outer with
    | nil => exact .singleton _
    | cons next outer => exact List.isChain_cons_cons.mpr (List.isChain_cons_cons.mp linked)
  case pending =>
    intro other member
    rcases List.mem_cons.mp member with rfl | inside
    · have before := valid.pending frame (path ▸ List.mem_cons_self)
      exact (rest ▸ List.suffix_cons arc pending).trans before
    · exact valid.pending other (path ▸ List.mem_cons_of_mem _ inside)
  case roots => exact valid.roots
  case unseen => exact valid.unseen
  case entering => exact valid.entering

theorem Valid.enter {state : StateId} (valid : search.Valid graph) (white : search.colors[state]? = some .white)
    (edge : ∀ frame ∈ search.path.head?, graph.Edge frame.state state) (running : search.running = true) :
    (search.enter graph state).Valid graph := by
  have bound := (Array.getElem?_eq_some_iff.mp white).1
  have fresh : state ∉ search.path.map Frame.state := by
    rw [← valid.grey, white]
    simp
  constructor
  case sized => simpa [Search.enter] using valid.sized
  case grey =>
    intro s
    have before := valid.grey s
    by_cases same : s = state
    · subst same; simp [Search.enter, bound]
    · simpa [Search.enter, Array.getElem?_setIfInBounds, same, Ne.symm same] using before
  case distinct => simpa [Search.enter] using ⟨by simpa using fresh, valid.distinct⟩
  case linked =>
    cases path : search.path with
    | nil => simp [Search.enter, Linked, path]
    | cons frame outer =>
      have first := edge frame (by simp [path])
      simpa [Search.enter, Linked, path] using ⟨first, path ▸ valid.linked⟩
  case pending =>
    intro frame member
    rcases List.mem_cons.mp member with rfl | inside
    · exact List.suffix_refl _
    · exact valid.pending frame inside
  case roots => exact valid.roots
  case unseen =>
    intro s unseen
    apply valid.unseen
    by_cases same : s = state
    · subst same; exact white
    · simpa [Search.enter, Array.getElem?_setIfInBounds, Ne.symm same] using unseen
  case entering => exact fun _ => running

theorem Valid.leave {frame : Frame W} {outer : List (Frame W)} (valid : search.Valid graph)
    (path : search.path = frame :: outer) : (search.leave frame.state outer).Valid graph := by
  have grey : search.colors[frame.state]? = some .grey := (valid.grey _).mpr (by simp [path])
  have bound := (Array.getElem?_eq_some_iff.mp grey).1
  have distinct : (frame.state :: outer.map Frame.state).Nodup := by simpa [path] using valid.distinct
  have linked := path ▸ valid.linked
  constructor
  case sized => simpa [Search.leave] using valid.sized
  case grey =>
    intro s
    have before := valid.grey s
    by_cases same : s = frame.state
    · subst same
      simpa [Search.leave, bound] using (List.nodup_cons.mp distinct).1
    · simpa [Search.leave, Array.getElem?_setIfInBounds, path, same, Ne.symm same] using before
  case distinct => exact (List.nodup_cons.mp distinct).2
  case linked => exact linked.tail
  case pending => exact fun other member => valid.pending other (path ▸ List.mem_cons_of_mem _ member)
  case roots => exact valid.roots
  case unseen =>
    intro s unseen
    apply valid.unseen
    by_cases same : s = frame.state
    · subst same; simp [Search.leave, bound] at unseen
    · simpa [Search.leave, Array.getElem?_setIfInBounds, Ne.symm same] using unseen
  case entering => exact valid.entering

theorem Valid.arc_mem {frame : Frame W} {outer : List (Frame W)} {arc : Arc W} {pending : List (Arc W)}
    (valid : search.Valid graph) (path : search.path = frame :: outer) (rest : frame.pending = arc :: pending) :
    arc ∈ graph.arcsFrom frame.state :=
  (valid.pending frame (path ▸ List.mem_cons_self)).mem (rest ▸ List.mem_cons_self)

theorem Valid.step {action : Step W} (valid : search.Valid graph) (moves : Moves graph search action)
    (leads : action.Leads next) : next.Valid graph := by
  cases moves with
  | lostRoot | done | lostTarget => cases leads
  | newRoot path running rest white =>
    cases leads
    have entered := valid.enter white (by simp [path]) running
    have bound := (Array.getElem?_eq_some_iff.mp white).1
    exact (entered.dropRoot rest (by simp [Search.enter, bound])).carry rfl rfl rfl fun _ => running
  | oldRoot path running rest seen other =>
    cases leads
    exact valid.dropRoot rest fun white => other (Option.some.inj (seen.symm.trans white))
  | discover path entering =>
    cases leads
    exact valid.carry rfl rfl rfl (absurd · (by simp))
  | tree path entering running rest white =>
    cases leads with
    | ask answer =>
      have passed := valid.passArc path rest
      have member := valid.arc_mem path rest
      cases answer with
      | true =>
        refine passed.enter white ?_ running
        intro other equal
        cases equal
        exact ⟨_, member, rfl⟩
      | false => exact passed.carry rfl rfl rfl (absurd · (by simp [entering]))
  | back path entering running rest grey =>
    cases leads
    exact (valid.passArc path rest).carry rfl rfl rfl (absurd · (by simp [entering]))
  | cross path entering running rest black =>
    cases leads
    exact (valid.passArc path rest).carry rfl rfl rfl (absurd · (by simp [entering]))
  | finish path entering explored => cases leads; exact valid.leave path

/-- When nothing is on the path and no root is left, every state is black. -/
theorem Valid.black_of_done {s : StateId} (valid : search.Valid graph) (path : search.path = [])
    (exhausted : search.roots = []) (inside : s < graph.size) : search.colors[s]? = some .black := by
  have found := Array.getElem?_eq_getElem (valid.sized ▸ inside : s < search.colors.size)
  obtain ⟨color, found⟩ : ∃ color, search.colors[s]? = some color := ⟨_, found⟩
  cases color with
  | white =>
    have waiting := valid.unseen s found
    rw [exhausted] at waiting
    cases waiting
  | grey =>
    have member := (valid.grey s).mp found
    rw [path] at member
    cases member
  | black => exact found

/-- What every step keeps holds when the search ends, by failure or by coming to its end. -/
theorem run_satisfies {V : Type} {visit : V → Event W → V × Bool} {kept : V → Search W → Prop}
    {result : V × Except GraphError Unit → Prop}
    (pass : ∀ visitor search next, kept visitor search → Moves graph search (.pass next) → kept visitor next)
    (ask : ∀ visitor search event next, kept visitor search → Moves graph search (.ask event next) →
      kept (visit visitor event).1 (next (visit visitor event).2))
    (tell : ∀ visitor search event next, kept visitor search → Moves graph search (.tell event next) →
      kept (visit visitor event).1 next)
    (fail : ∀ visitor search s, kept visitor search → Moves graph search (.fail s) →
      result (visitor, .error (.invalidState s)))
    (stop : ∀ visitor search, kept visitor search → Moves graph search .stop →
      result ((visit visitor .done).1, .ok ()))
    (visitor : V) (search : Search W) (holds : kept visitor search) : result (search.run graph visit visitor) := by
  have moves := step_moves graph search
  unfold run
  split
  next next taken => exact run_satisfies pass ask tell fail stop _ _ (pass _ _ _ holds (taken ▸ moves))
  next event next taken => exact run_satisfies pass ask tell fail stop _ _ (ask _ _ _ _ holds (taken ▸ moves))
  next event next taken => exact run_satisfies pass ask tell fail stop _ _ (tell _ _ _ _ holds (taken ▸ moves))
  next s taken => exact fail _ _ _ holds (taken ▸ moves)
  next taken => exact stop _ _ holds (taken ▸ moves)
termination_by search.rank
decreasing_by
  · exact step_decreases graph (by rw [‹search.step graph = _›]; exact .pass)
  · exact step_decreases graph (by rw [‹search.step graph = _›]; exact .ask _)
  · exact step_decreases graph (by rw [‹search.step graph = _›]; exact .tell)

end Transducer.Search
