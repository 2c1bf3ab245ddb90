import Transducer.Graph.Basic

/-! Depth-first search. The search is a machine that takes one step at a time and asks a visitor about
what it meets. Once the visitor declines, the machine only leaves the states that it is in. The start is
the first root, and each state that is still unseen becomes one after it. -/

namespace Transducer

inductive Color where
  /-- Not yet met. -/
  | white
  /-- On the path from the root. -/
  | grey
  /-- Left for good. -/
  | black
deriving DecidableEq, Repr

/-- What a search meets. -/
inductive Event (W : Type) where
  | discover (state root : StateId)
  /-- An arc to a state that is not yet met. -/
  | treeArc (source : StateId) (arc : Arc W)
  /-- An arc to a state on the path, or from a state to itself. -/
  | backArc (source : StateId) (arc : Arc W)
  /-- An arc to a state left for good, forward or across. -/
  | crossArc (source : StateId) (arc : Arc W)
  /-- A state is left. The parent is the state that it was met from, none for a root. -/
  | finish (state : StateId) (parent : Option StateId)
  | done
deriving DecidableEq, Repr

/-- A state on the path with the arcs still to be explored. -/
structure Frame (W : Type) where
  state : StateId
  pending : List (Arc W)

structure Search (W : Type) where
  colors : Array Color
  /-- The roots still to be tried. -/
  roots : List StateId
  /-- The root of the path. -/
  root : StateId := 0
  /-- The path, with the innermost state first. -/
  path : List (Frame W) := []
  /-- The innermost state is on the path but not yet discovered. -/
  entering : Bool := false
  running : Bool := true

/-- What a step does: nothing to be seen, a question whose answer decides how to go on, a notice, a
failure at a number that is no state, or the end. -/
inductive Step (W : Type) where
  | pass (next : Search W)
  | ask (event : Event W) (next : Bool → Search W)
  | tell (event : Event W) (next : Search W)
  | fail (state : StateId)
  | stop

/-- The searches that a step can lead to. -/
inductive Step.Leads {W : Type} : Step W → Search W → Prop where
  | pass {next : Search W} : Leads (.pass next) next
  | ask {event : Event W} {next : Bool → Search W} (answer : Bool) : Leads (.ask event next) (next answer)
  | tell {event : Event W} {next : Search W} : Leads (.tell event next) next

namespace Search

variable {W : Type}

/-- The start and then all states are to be tried as roots. In a counted graph the states are its `ids`. -/
def begin (graph : Graph W) : Search W where
  colors := Array.replicate graph.size .white
  roots := graph.start.toList ++ List.range graph.size

/-- Puts a state on the path. -/
def enter (search : Search W) (graph : Graph W) (state : StateId) : Search W :=
  { search with
    colors := search.colors.setIfInBounds state .grey
    path := ⟨state, graph.arcsFrom state⟩ :: search.path
    entering := true }

/-- Takes the innermost state off the path. -/
def leave (search : Search W) (state : StateId) (outer : List (Frame W)) : Search W :=
  { search with colors := search.colors.setIfInBounds state .black, path := outer }

/-- One arc of the innermost state, by the color of its target. -/
def follow (search : Search W) (graph : Graph W) (source : StateId) (arc : Arc W) : Step W :=
  match search.colors[arc.target]? with
  | none => .fail arc.target
  | some .white =>
    .ask (.treeArc source arc) fun answer =>
      if answer then search.enter graph arc.target else { search with running := false }
  | some .grey => .ask (.backArc source arc) fun answer => { search with running := answer }
  | some .black => .ask (.crossArc source arc) fun answer => { search with running := answer }

def step (graph : Graph W) (search : Search W) : Step W :=
  match search.path with
  | [] =>
    match search.running, search.roots with
    | true, root :: roots =>
      match search.colors[root]? with
      | none => .fail root
      | some .white => .pass ({ search with roots, root }.enter graph root)
      | some _ => .pass { search with roots }
    | _, _ => .stop
  | frame :: outer =>
    if search.entering then
      .ask (.discover frame.state search.root) fun answer =>
        { search with entering := false, running := answer }
    else
      match search.running, frame.pending with
      | true, arc :: pending =>
        { search with path := { frame with pending } :: outer }.follow graph frame.state arc
      | _, _ => .tell (.finish frame.state (outer.head?.map Frame.state)) (search.leave frame.state outer)

/-- The steps that a search can still take without meeting a new state. -/
def remaining (search : Search W) : Nat :=
  (search.path.map fun frame => frame.pending.length + 1).sum + search.roots.length + search.entering.toNat

/-- Steps meet a new state or use up what remains, so a search ends. -/
def rank (search : Search W) : Nat × Nat := (search.colors.count .white, search.remaining)

/-- Meeting a state leaves fewer to be met. -/
theorem count_enter {search : Search W} {state : StateId} (white : search.colors[state]? = some .white)
    (graph : Graph W) : (search.enter graph state).colors.count .white < search.colors.count .white := by
  obtain ⟨bound, color⟩ := Array.getElem?_eq_some_iff.mp white
  have positive : 0 < search.colors.count .white :=
    Array.count_pos_iff.mpr (color ▸ Array.getElem_mem bound)
  have counted : (search.colors.set state .grey bound).count .white = search.colors.count .white - 1 := by
    rw [Array.count_set bound, color]
    rfl
  rw [enter, Array.setIfInBounds, dif_pos bound, counted]
  exact Nat.sub_lt positive Nat.one_pos

theorem count_leave_le (search : Search W) (state : StateId) (outer : List (Frame W)) :
    (search.leave state outer).colors.count .white ≤ search.colors.count .white := by
  rw [leave, Array.setIfInBounds]
  split
  next bound =>
    have other : (Color.black == .white) = false := rfl
    rw [Array.count_set bound, other, if_neg Bool.false_ne_true]
    exact Nat.sub_le _ _
  next => exact Nat.le_refl _

theorem rank_lex {next search : Search W} (unseen : next.colors.count .white ≤ search.colors.count .white)
    (fewer : next.remaining < search.remaining) :
    Prod.Lex (· < ·) (· < ·) next.rank search.rank := by
  rcases Nat.lt_or_eq_of_le unseen with less | same
  · exact .left _ _ less
  · exact Prod.lex_def.mpr (.inr ⟨same, fewer⟩)

theorem follow_decreases {graph : Graph W} {search before next : Search W} {source : StateId} {arc : Arc W}
    (same : search.colors = before.colors) (fewer : search.remaining < before.remaining)
    (leads : (search.follow graph source arc).Leads next) :
    Prod.Lex (· < ·) (· < ·) next.rank before.rank := by
  have unseen : search.colors.count .white ≤ before.colors.count .white :=
    Nat.le_of_eq (congrArg (Array.count .white) same)
  unfold follow at leads
  split at leads
  next => cases leads
  next white =>
    cases leads with
    | ask answer =>
      cases answer with
      | true => exact .left _ _ (Nat.lt_of_lt_of_le (count_enter white graph) unseen)
      | false => exact rank_lex unseen fewer
  next => cases leads; exact rank_lex unseen fewer
  next => cases leads; exact rank_lex unseen fewer

theorem step_decreases (graph : Graph W) {search next : Search W} (leads : (search.step graph).Leads next) :
    Prod.Lex (· < ·) (· < ·) next.rank search.rank := by
  unfold step at leads
  split at leads
  next empty =>
    split at leads
    next root roots _ rest =>
      split at leads
      next => cases leads
      next white => cases leads; exact .left _ _ (count_enter white graph)
      next => cases leads; exact rank_lex (Nat.le_refl _) (by simp [remaining, rest])
    next => cases leads
  next frame outer path =>
    split at leads
    next entering => cases leads; exact rank_lex (Nat.le_refl _) (by simp [remaining, entering])
    next =>
      split at leads
      next arc pending _ explored =>
        exact follow_decreases (by rfl) (by simp [remaining, path, explored]) leads
      next =>
        cases leads
        exact rank_lex (count_leave_le search frame.state outer) (by simp [remaining, leave, path])

/-- Runs a search to its end with a visitor, whose answers count for questions only. A failure is the
last thing that happens: the visitor is not told of it. -/
def run {V : Type} (graph : Graph W) (visit : V → Event W → V × Bool) (visitor : V) (search : Search W) :
    V × Except GraphError Unit :=
  match _ : search.step graph with
  | .pass next => run graph visit visitor next
  | .ask event next =>
    let (visitor, answer) := visit visitor event
    run graph visit visitor (next answer)
  | .tell event next => run graph visit (visit visitor event).1 next
  | .fail state => (visitor, .error (.invalidState state))
  | .stop => ((visit visitor .done).1, .ok ())
termination_by search.rank
decreasing_by
  · exact step_decreases graph (by rw [‹search.step graph = _›]; exact .pass)
  · exact step_decreases graph (by rw [‹search.step graph = _›]; exact .ask _)
  · exact step_decreases graph (by rw [‹search.step graph = _›]; exact .tell)

end Search

/-- Searches the whole graph. -/
def Graph.search {W V : Type} (graph : Graph W) (visit : V → Event W → V × Bool) (visitor : V) :
    V × Except GraphError Unit :=
  (Search.begin graph).run graph visit visitor

end Transducer
