import Mathlib.Algebra.Order.BigOperators.Group.List
import Mathlib.Algebra.Order.Group.Nat
import Mathlib.Data.List.Perm.Subperm
import Transducer.Proofs.Declining

/-! A search of any graph, whatever numbers it names, with any visitor. The visitor hears of each state and of each arc
at most once. The search fails at the first number it comes to that is no state, and nothing is heard after that. A
table of colors that is written without a look at its bounds is never written outside of them. -/

namespace Transducer

variable {W V : Type}

/-- No state is discovered or finished twice, and no arc is met twice. -/
structure Bounded (graph : Graph W) (heard : List (Event W)) : Prop where
  discovered : (discoveries heard).Nodup
  finished : (finishes heard).Nodup
  states : ∀ s, s ∈ discoveries heard ∨ s ∈ finishes heard → s < graph.size
  /-- The arcs of a state are met in their order from the first on. -/
  reports : ∀ s, reportsFrom s heard <+: graph.arcsFrom s

/-- The numbers that a search comes to after it has told these events: the start before all else, and then the
target of the next arc of the innermost state. -/
inductive Graph.Meets (graph : Graph W) (heard : List (Event W)) : StateId → Prop where
  | start {s : StateId} (first : heard = []) (start : graph.start = some s) : Meets graph heard s
  | target {source : StateId} {arc : Arc W} {rest : List (Arc W)} (inner : (openStates heard).head? = some source)
      (free : awaited heard = none) (next : graph.arcsFrom source = reportsFrom source heard ++ arc :: rest) :
      Meets graph heard arc.target

/-- All numbers that the search came to before these events are states. -/
def Untroubled (graph : Graph W) (visit : V → Event W → V × Bool) (visitor : V) (heard : List (Event W)) : Prop :=
  ∀ k < heard.length, Agrees visit visitor (heard.take k) → ∀ s, graph.Meets (heard.take k) s → s < graph.size

/-- How a search ends: at the first number that is no state, before all is done, or without such a number. -/
inductive Ending (graph : Graph W) (visit : V → Event W → V × Bool) (visitor : V) :
    List (Event W) → Except GraphError Unit → Prop where
  | lost {heard : List (Event W)} {s : StateId} (untroubled : Untroubled graph visit visitor heard)
      (agrees : Agrees visit visitor heard) (meets : graph.Meets heard s) (outside : graph.size ≤ s)
      (undone : .done ∉ heard) : Ending graph visit visitor heard (.error (.invalidState s))
  | done {before : List (Event W)} (untroubled : Untroubled graph visit visitor (before ++ [.done]))
      (closed : openStates before = []) (undone : .done ∉ before) :
      Ending graph visit visitor (before ++ [.done]) (.ok ())

/-- The event that a step tells. -/
def Step.event? : Step W → Option (Event W)
  | .ask event _ | .tell event _ => some event
  | .stop => some .done
  | .pass _ | .fail _ => none

/-- What stops a search that trusts its table of colors. -/
inductive Crash where
  | graph (error : GraphError)
  /-- The table has no such entry. -/
  | outside (s : StateId)
deriving DecidableEq, Repr

section Events

variable {graph : Graph W} {visit : V → Event W → V × Bool} {visitor : V} {heard : List (Event W)} {event : Event W}
  {s : StateId}

theorem agrees_concat : Agrees visit visitor (heard ++ [event]) ↔
    Agrees visit visitor heard ∧ (event.asks = true → (visit (hearing visit visitor heard) event).2 = true) := by
  induction heard generalizing visitor with
  | nil => simp [Agrees, hearing]
  | cons first heard ih => simp only [List.cons_append, Agrees, ih, hearing, List.foldl_cons, and_assoc]

theorem hearing_concat :
    hearing visit visitor (heard ++ [event]) = (visit (hearing visit visitor heard) event).1 := by
  simp [hearing]

theorem Untroubled.concat (untroubled : Untroubled graph visit visitor heard)
    (next : Agrees visit visitor heard → ∀ s, graph.Meets heard s → s < graph.size) :
    Untroubled graph visit visitor (heard ++ [event]) := by
  intro k less
  rcases Nat.lt_or_eq_of_le (Nat.le_of_lt_succ (by simpa using less)) with earlier | rfl
  · rw [List.take_append_of_le_length (Nat.le_of_lt earlier)]
    exact untroubled k earlier
  · rw [List.take_left]
    exact next

theorem Orderly.finishes_nodup (orderly : Orderly graph heard) : (finishes heard).Nodup := by
  induction heard using List.reverseRecOn with
  | nil => exact .nil
  | append_singleton heard event ih =>
    obtain ⟨before, follows⟩ := orderly_concat.mp orderly
    have same (silent : event.finished? = none) : (finishes (heard ++ [event])).Nodup := by
      simpa [silent] using ih before
    cases follows with
    | finish inner free parent root =>
      have opened := mem_openStates.mp (inner ▸ List.mem_cons_self)
      simpa [Event.finished?] using (ih before).concat opened.2
    | _ => exact same rfl

theorem Orderly.lt_of_discovered (orderly : Orderly graph heard) (discovered : s ∈ discoveries heard) :
    s < graph.size := by
  obtain ⟨root, member⟩ := mem_discoveries_iff.mp discovered
  obtain ⟨i, found⟩ := List.mem_iff_getElem?.mp member
  exact (orderly.fresh ⟨root, found⟩).1

/-- To finish an open state is to finish it for the first time. -/
theorem Bounded.finish {parent : Option StateId} (bounded : Bounded graph heard) (opened : s ∈ openStates heard) :
    Bounded graph (heard ++ [.finish s parent]) := by
  obtain ⟨discovered, unfinished⟩ := mem_openStates.mp opened
  constructor
  case discovered => simpa [Event.discovered?] using bounded.discovered
  case finished => simpa [Event.finished?] using bounded.finished.concat unfinished
  case states =>
    intro t given
    have before : t ∈ discoveries heard ∨ t ∈ finishes heard ∨ t = s := by
      simpa [Event.discovered?, Event.finished?] using given
    rcases before with known | known | rfl
    · exact bounded.states t (.inl known)
    · exact bounded.states t (.inr known)
    · exact bounded.states t (.inl discovered)
  case reports =>
    intro t
    rw [reportsFrom_of_silent rfl]
    exact bounded.reports t

theorem Bounded.done (bounded : Bounded graph heard) : Bounded graph (heard ++ [.done]) := by
  constructor
  case discovered => simpa [Event.discovered?] using bounded.discovered
  case finished => simpa [Event.finished?] using bounded.finished
  case states => simpa [Event.discovered?, Event.finished?] using bounded.states
  case reports =>
    intro s
    rw [reportsFrom_of_silent rfl]
    exact bounded.reports s

/-- Every event but the last tells of the discovery of a state, of its end or of an arc. -/
theorem length_heard (undone : .done ∉ heard) : heard.length =
    (discoveries heard).length + (finishes heard).length + (heard.filterMap Event.report?).length := by
  induction heard with
  | nil => rfl
  | cons event heard ih =>
    obtain ⟨other, undone⟩ := not_or.mp (mt List.mem_cons.mpr undone)
    have rest := ih undone
    cases event with
    | done => exact absurd rfl other
    | discover | treeArc | backArc | crossArc | finish =>
      simp only [discoveries, finishes, List.filterMap_cons, Event.discovered?, Event.finished?, Event.report?,
        List.length_cons] at rest ⊢
      omega

/-- The arcs met are those met from each of so many states, if none is met from another. -/
theorem length_reports {count : Nat} (inside : ∀ s, count ≤ s → reportsFrom s heard = []) :
    (heard.filterMap Event.report?).length = ((List.range count).map fun s => (reportsFrom s heard).length).sum := by
  induction heard using List.reverseRecOn with
  | nil => simp [reportsFrom]
  | append_singleton heard event ih =>
    have before : ∀ s, count ≤ s → reportsFrom s heard = [] := fun s beyond =>
      (List.append_eq_nil_iff.mp (reportsFrom_append ▸ inside s beyond)).1
    cases about : event.report? with
    | none => simp [about, reportsFrom_of_silent about, ih before]
    | some report =>
      obtain ⟨source, arc⟩ := report
      have known : source < count := by
        by_contra beyond
        have none := inside source (Nat.le_of_not_lt beyond)
        simp [reportsFrom_concat about] at none
      have one (s : StateId) : (reportsFrom s (heard ++ [event])).length =
          (reportsFrom s heard).length + if s = source then 1 else 0 := by
        rw [reportsFrom_concat about, List.length_append]
        by_cases same : source = s <;> simp [same, eq_comm]
      have single : ((List.range count).map fun s => if s = source then 1 else 0).sum = 1 := by
        rw [List.sum_map_eq_nsmul_single source _ fun s other _ => if_neg other, List.nodup_range.count,
          if_pos (List.mem_range.mpr known), if_pos rfl, one_nsmul]
      simp only [List.filterMap_append, List.length_append, one, List.sum_map_add, single, ih before]
      simp [about]

theorem Bounded.length_le (bounded : Bounded graph heard) (undone : .done ∉ heard) :
    heard.length ≤ 2 * graph.size + graph.totalArcs := by
  have fits {states : List StateId} (distinct : states.Nodup) (inside : ∀ s ∈ states, s < graph.size) :
      states.length ≤ graph.size := by
    have within : states ⊆ List.range graph.size := fun s member => List.mem_range.mpr (inside s member)
    simpa using (List.subperm_of_subset distinct within).length_le
  have discovered := fits bounded.discovered fun s member => bounded.states s (.inl member)
  have finished := fits bounded.finished fun s member => bounded.states s (.inr member)
  have reported : (heard.filterMap Event.report?).length ≤ graph.totalArcs := by
    have none (s : StateId) (outside : graph.size ≤ s) : reportsFrom s heard = [] :=
      List.prefix_nil.mp (graph.arcsFrom_of_size_le outside ▸ bounded.reports s)
    rw [length_reports none, Graph.totalArcs_eq]
    exact List.sum_le_sum fun s _ => (bounded.reports s).length_le
  rw [length_heard undone]
  omega

end Events

namespace Search

variable {graph : Graph W} {visit : V → Event W → V × Bool} {visitor : V} {search next : Search W}
  {heard : List (Event W)} {event : Event W} {s : StateId}

theorem Keeps.bounded (keeps : Keeps graph heard search) : Bounded graph heard := by
  have recounts := keeps.recounts
  constructor
  case discovered => exact recounts.distinct
  case finished => exact keeps.orderly.finishes_nodup
  case states =>
    rintro s (discovered | finished)
    · exact keeps.orderly.lt_of_discovered discovered
    · exact keeps.orderly.lt_of_discovered (recounts.closed finished)
  case reports =>
    intro s
    by_cases discovered : s ∈ discoveries heard
    · rcases recounts.mem_discoveries.mp discovered with finished | met
      · exact recounts.explored s finished ▸ List.prefix_refl _
      · obtain ⟨frame, member, rfl⟩ := List.mem_map.mp (search.met_subset met)
        exact ⟨frame.pending, recounts.pending frame member⟩
    · rw [recounts.unexplored s discovered]
      exact List.nil_prefix

/-- The arc that the innermost state goes on with. -/
def exploring (search : Search W) : Option (Arc W) :=
  match search.entering, search.path with
  | false, frame :: _ => frame.pending.head?
  | _, _ => none

/-- What can be told from the events about the number that a search comes to is right. -/
theorem Keeps.meets (keeps : Keeps graph heard search) (meets : graph.Meets heard s) :
    heard = [] ∧ graph.start = some s ∨ ∃ arc, search.exploring = some arc ∧ arc.target = s := by
  cases meets with
  | start first start => exact .inl ⟨first, start⟩
  | @target source arc rest inner free next =>
    refine .inr ⟨arc, ?_, rfl⟩
    have recounts := keeps.recounts
    rw [recounts.opened] at inner
    rw [keeps.awaits] at free
    cases entering : search.entering with
    | true =>
      rw [met_of_entering entering] at inner
      cases path : search.path with
      | nil => simp [path] at inner
      | cons frame outer =>
        cases outer with
        | nil => simp [path] at inner
        | cons next outer => simp [expected, entering, path] at free
    | false =>
      rw [met_of_entered entering] at inner
      cases path : search.path with
      | nil => simp [path] at inner
      | cons frame outer =>
        obtain rfl : frame.state = source := by simpa [path] using inner
        have pending := recounts.pending frame (by simp [path])
        rw [next] at pending
        simp [exploring, entering, path, List.append_cancel_left pending]

/-- What a step that talks comes to is in the table. -/
theorem Moves.exploring_lt {action : Step W} {arc : Arc W} (moves : Moves graph search action)
    (talks : action.event? = some event) (running : search.running = true) (explores : search.exploring = some arc) :
    arc.target < search.colors.size := by
  have known {color : Color} {other : Arc W} (same : other = arc) (seen : search.colors[other.target]? = some color) :
      arc.target < search.colors.size := same ▸ (Array.getElem?_eq_some_iff.mp seen).1
  cases moves with
  | lostRoot | newRoot | oldRoot | lostTarget => cases talks
  | done path ended => simp [exploring, path] at explores
  | discover path entering => simp [exploring, entering] at explores
  | tree path entering running rest white =>
    exact known (by simpa [exploring, entering, path, rest] using explores) white
  | back path entering running rest grey => exact known (by simpa [exploring, entering, path, rest] using explores) grey
  | cross path entering running rest black =>
    exact known (by simpa [exploring, entering, path, rest] using explores) black
  | finish path entering explored => simp [exploring, entering, path, explored running] at explores

theorem Moves.exploring_of_report {next : Bool → Search W} {source : StateId} {arc : Arc W}
    (moves : Moves graph search (.ask event next)) (about : event.report? = some (source, arc)) :
    search.exploring = some arc := by
  cases moves with
  | discover => cases about
  | tree path entering running rest => cases about; simp [exploring, entering, path, rest]
  | back path entering running rest => cases about; simp [exploring, entering, path, rest]
  | cross path entering running rest => cases about; simp [exploring, entering, path, rest]

/-- What has been heard of a search under way, whether the visitor goes along or has stopped it. -/
structure Logs (graph : Graph W) (visit : V → Event W → V × Bool) (visitor : V) (heard : List (Event W))
    (search : Search W) : Prop where
  valid : search.Valid graph
  bounded : Bounded graph heard
  opened : openStates heard = search.met
  undone : .done ∉ heard
  untroubled : Untroubled graph visit visitor heard
  /-- Once the search has begun, the start is known to be a state. -/
  begun : search = begin graph ∧ heard = [] ∨ ∀ s, graph.start = some s → s < graph.size
  targets : ∀ event ∈ heard, ∀ source arc, event.report? = some (source, arc) → arc.target < graph.size
  going : search.running = true → Keeps graph heard search ∧ Agrees visit visitor heard
  halted : search.running = false → search.entering = false ∧ ¬ Agrees visit visitor heard

theorem begin_logs (graph : Graph W) (visit : V → Event W → V × Bool) (visitor : V) :
    Logs graph visit visitor [] (begin graph) where
  valid := begin_valid graph
  bounded := (begin_keeps graph).bounded
  opened := rfl
  undone := List.not_mem_nil
  untroubled := nofun
  begun := .inl ⟨rfl, rfl⟩
  targets := nofun
  going _ := ⟨begin_keeps graph, trivial⟩
  halted := nofun

namespace Logs

/-- A step that talks comes after the start has been tried. -/
theorem start_lt {action : Step W} (logs : Logs graph visit visitor heard search) (moves : Moves graph search action)
    (talks : action.event? = some event) (start : graph.start = some s) : s < graph.size := by
  rcases logs.begun with ⟨rfl, -⟩ | inside
  · cases moves with
    | lostRoot | newRoot | oldRoot | lostTarget => cases talks
    | done path ended => simp [begin, start] at ended
    | discover path | tree path | back path | cross path | finish path => cases path
  · exact inside s start

/-- What the search came to before a step that talks is a state. -/
theorem meets_lt {action : Step W} (logs : Logs graph visit visitor heard search) (moves : Moves graph search action)
    (talks : action.event? = some event) (running : search.running = true) (meets : graph.Meets heard s) :
    s < graph.size := by
  rcases (logs.going running).1.meets meets with ⟨-, start⟩ | ⟨arc, explores, rfl⟩
  · exact logs.start_lt moves talks start
  · exact logs.valid.sized ▸ moves.exploring_lt talks running explores

theorem pass (logs : Logs graph visit visitor heard search) (moves : Moves graph search (.pass next)) :
    Logs graph visit visitor heard next := by
  have running : search.running = true ∧ next.running = true := by
    cases moves with
    | newRoot path running rest white => exact ⟨running, running⟩
    | oldRoot path running rest seen other => exact ⟨running, running⟩
  obtain ⟨keeps, agrees⟩ := logs.going running.1
  have kept := keeps.pass moves
  constructor
  case valid => exact kept.recounts.valid
  case bounded => exact logs.bounded
  case opened => exact kept.recounts.opened
  case undone => exact logs.undone
  case untroubled => exact logs.untroubled
  case begun =>
    rcases logs.begun with ⟨rfl, -⟩ | inside
    · have known {root : StateId} {roots : List StateId} {color : Color} (rest : (begin graph).roots = root :: roots)
          (seen : (begin graph).colors[root]? = some color) (s : StateId) (start : graph.start = some s) :
          s < graph.size := by
        have bound := (Array.getElem?_eq_some_iff.mp seen).1
        rw [logs.valid.sized] at bound
        obtain ⟨rfl, -⟩ : s = root ∧ _ := by simpa [begin, start] using rest
        exact bound
      cases moves with
      | newRoot path running rest white => exact .inr (known rest white)
      | oldRoot path running rest seen other => exact .inr (known rest seen)
    · exact .inr inside
  case targets => exact logs.targets
  case going => exact fun _ => ⟨kept, agrees⟩
  case halted => exact fun halted => absurd running.2 (by simp [halted])

theorem ask {next : Bool → Search W} (logs : Logs graph visit visitor heard search)
    (moves : Moves graph search (.ask event next)) :
    Logs graph visit visitor (heard ++ [event]) (next (visit (hearing visit visitor heard) event).2) := by
  have running : search.running = true := by
    cases moves with
    | discover path entering => exact logs.valid.entering entering
    | tree path entering running | back path entering running | cross path entering running => exact running
  obtain ⟨keeps, agrees⟩ := logs.going running
  have kept := keeps.ask moves
  obtain ⟨halted, entered, path⟩ := moves.declined
  generalize answered : (visit (hearing visit visitor heard) event).2 = answer
  constructor
  case valid => exact logs.valid.step moves (.ask answer)
  case bounded => exact kept.bounded
  case opened =>
    cases answer with
    | true => exact kept.recounts.opened
    | false => rw [met_of_entered entered, path, kept.recounts.opened]
  case undone => exact kept.recounts.unfinished
  case untroubled => exact logs.untroubled.concat fun _ s => logs.meets_lt moves rfl running
  case begun => exact .inr fun s => logs.start_lt moves rfl
  case targets =>
    intro other member source arc about
    rcases List.mem_append.mp member with before | last
    · exact logs.targets other before source arc about
    · obtain rfl := List.mem_singleton.mp last
      exact logs.valid.sized ▸ moves.exploring_lt rfl running (moves.exploring_of_report about)
  case going =>
    intro goes
    cases answer with
    | true => exact ⟨kept, agrees_concat.mpr ⟨agrees, fun _ => answered⟩⟩
    | false => exact absurd goes (by simp [halted])
  case halted =>
    intro stopped
    cases answer with
    | true => exact absurd kept.recounts.running (by simp [stopped])
    | false => exact ⟨entered, fun given => absurd ((agrees_concat.mp given).2 moves.asks) (by simp [answered])⟩

theorem tell (logs : Logs graph visit visitor heard search) (moves : Moves graph search (.tell event next)) :
    Logs graph visit visitor (heard ++ [event]) next := by
  have silent := moves.not_asks
  have agrees : Agrees visit visitor (heard ++ [event]) ↔ Agrees visit visitor heard := by
    rw [agrees_concat, silent]
    simp
  have untroubled : Untroubled graph visit visitor (heard ++ [event]) := by
    refine logs.untroubled.concat fun agrees s => ?_
    cases running : search.running with
    | true => exact logs.meets_lt moves rfl running
    | false => exact absurd agrees (logs.halted running).2
  have begun : ∀ s, graph.start = some s → s < graph.size := fun s => logs.start_lt moves rfl
  have valid := logs.valid.step moves .tell
  have kept (running : search.running = true) : Keeps graph (heard ++ [event]) next :=
    (logs.going running).1.tell moves
  cases moves with
  | @finish frame outer path entering explored =>
    have before : openStates heard = frame.state :: outer.map Frame.state := by
      rw [logs.opened, met_of_entered entering, path, List.map_cons]
    have distinct := logs.valid.distinct
    rw [path, List.map_cons] at distinct
    constructor
    case valid => exact valid
    case bounded => exact logs.bounded.finish (by simp [before])
    case opened =>
      have met : (search.leave frame.state outer).met = outer.map Frame.state := met_of_entered entering
      rw [met, openStates_finish_inner before distinct]
    case undone => simp [logs.undone]
    case untroubled => exact untroubled
    case begun => exact .inr begun
    case targets =>
      intro other member source arc about
      rcases List.mem_append.mp member with earlier | last
      · exact logs.targets other earlier source arc about
      · obtain rfl := List.mem_singleton.mp last
        cases about
    case going => exact fun running => ⟨kept running, agrees.mpr (logs.going running).2⟩
    case halted => exact fun stopped => ⟨entering, mt agrees.mp (logs.halted stopped).2⟩

theorem fail (logs : Logs graph visit visitor heard search) (moves : Moves graph search (.fail s)) :
    Ending graph visit visitor heard (.error (.invalidState s)) := by
  have beyond (outside : search.colors[s]? = none) : graph.size ≤ s :=
    logs.valid.sized ▸ Array.getElem?_eq_none_iff.mp outside
  cases moves with
  | lostRoot path running rest outside =>
    have agrees := (logs.going running).2
    have tried := logs.valid.roots.mem (rest ▸ List.mem_cons_self)
    have start : graph.start = some s := by
      rcases List.mem_append.mp tried with start | state
      · simpa using start
      · exact absurd (List.mem_range.mp state) (Nat.not_lt.mpr (beyond outside))
    have first : heard = [] := by
      rcases logs.begun with ⟨-, first⟩ | inside
      · exact first
      · exact absurd (inside s start) (Nat.not_lt.mpr (beyond outside))
    exact .lost logs.untroubled agrees (.start first start) (beyond outside) logs.undone
  | @lostTarget frame outer arc pending path entering running rest outside =>
    obtain ⟨keeps, agrees⟩ := logs.going running
    obtain ⟨opened, free⟩ := keeps.inner path entering
    have next := keeps.recounts.pending frame (by simp [path])
    rw [rest] at next
    exact .lost logs.untroubled agrees (.target (by simp [opened]) free next.symm) (beyond outside) logs.undone

theorem stop (logs : Logs graph visit visitor heard search) (moves : Moves graph search .stop) :
    Ending graph visit visitor (heard ++ [.done]) (.ok ()) := by
  have untroubled : Untroubled graph visit visitor (heard ++ [.done]) := by
    refine logs.untroubled.concat fun agrees s => ?_
    cases running : search.running with
    | true => exact logs.meets_lt moves rfl running
    | false => exact absurd agrees (logs.halted running).2
  cases moves with
  | done path ended =>
    have closed : openStates heard = [] := by
      rw [logs.opened]
      exact List.subset_nil.mp (by simpa [path] using search.met_subset)
    exact .done untroubled closed logs.undone

/-- A visitor that goes along to the end has seen that the graph names no number but states. -/
theorem wellFormed (logs : Logs graph visit visitor heard search) (moves : Moves graph search .stop)
    (agrees : Agrees visit visitor heard) : graph.WellFormed := by
  have running : search.running = true := by
    cases running : search.running with
    | true => rfl
    | false => exact absurd agrees (logs.halted running).2
  have explored : ∀ s, reportsFrom s heard = graph.arcsFrom s := by
    cases (logs.going running).1.ends moves with
    | done closed free all explored => exact explored
  constructor
  case start => exact fun s => logs.start_lt moves rfl
  case targets =>
    intro state member arc inside
    obtain ⟨s, found⟩ := Array.getElem?_of_mem member
    have reported : arc ∈ reportsFrom s heard := by
      rw [explored, Graph.arcsFrom_of_getElem? found]
      simpa using inside
    obtain ⟨event, told, about⟩ := List.mem_filterMap.mp reported
    obtain ⟨⟨source, other⟩, given, rfl⟩ := Option.map_eq_some_iff.mp about
    exact logs.targets event told source other (Option.filter_eq_some_iff.mp given).1

end Logs

/-- The entry of the table of colors that a step writes if the visitor gives this answer. -/
def cell? (search : Search W) (answer : Bool) : Option (StateId × Color) :=
  match search.path with
  | [] =>
    match search.running, search.roots with
    | true, root :: _ => if search.colors[root]? = some .white then some (root, .grey) else none
    | _, _ => none
  | frame :: _ =>
    if search.entering then none
    else
      match search.running, frame.pending with
      | true, arc :: _ =>
        if search.colors[arc.target]? = some .white ∧ answer = true then some (arc.target, .grey) else none
      | _, _ => some (frame.state, .black)

def overwrite (colors : Array Color) : Option (StateId × Color) → Array Color
  | none => colors
  | some (s, color) => colors.setIfInBounds s color

/-- Writes an entry, which has to be one of the table. -/
def put (colors : Array Color) : Option (StateId × Color) → Except Crash (Array Color)
  | none => .ok colors
  | some (s, color) => if _ : s < colors.size then .ok (colors.set s color) else .error (.outside s)

theorem put_of_inside {colors : Array Color} {entry : Option (StateId × Color)}
    (inside : ∀ s color, entry = some (s, color) → s < colors.size) :
    put colors entry = .ok (overwrite colors entry) := by
  cases entry with
  | none => rfl
  | some entry =>
    have bound := inside entry.1 entry.2 rfl
    simp [put, overwrite, bound, Array.setIfInBounds]

theorem Moves.overwrite_pass (moves : Moves graph search (.pass next)) :
    overwrite search.colors (search.cell? true) = next.colors := by
  cases moves with
  | newRoot path running rest white => simp [cell?, path, running, rest, white, overwrite, enter]
  | oldRoot path running rest seen other => simp [cell?, path, running, rest, seen, other, overwrite]

theorem Moves.overwrite_ask {next : Bool → Search W} (moves : Moves graph search (.ask event next)) (answer : Bool) :
    overwrite search.colors (search.cell? answer) = (next answer).colors := by
  cases moves with
  | discover path entering => simp [cell?, path, entering, overwrite]
  | tree path entering running rest white =>
    cases answer <;> simp [cell?, path, entering, running, rest, white, overwrite, enter]
  | back path entering running rest grey => simp [cell?, path, entering, running, rest, grey, overwrite]
  | cross path entering running rest black => simp [cell?, path, entering, running, rest, black, overwrite]

theorem Moves.overwrite_tell (moves : Moves graph search (.tell event next)) (answer : Bool) :
    overwrite search.colors (search.cell? answer) = next.colors := by
  cases moves with
  | finish path entering explored =>
    cases running : search.running with
    | true => simp [cell?, path, entering, running, explored running, overwrite, leave]
    | false => simp [cell?, path, entering, running, overwrite, leave]

theorem Moves.roots_ask {next : Bool → Search W} (moves : Moves graph search (.ask event next)) (answer : Bool) :
    (next answer).roots = search.roots := by
  cases moves with
  | tree => cases answer <;> rfl
  | discover | back | cross => rfl

theorem Moves.roots_tell (moves : Moves graph search (.tell event next)) : next.roots = search.roots := by
  cases moves
  rfl

/-- The only entries written are those of states whose color has been read and of those on the path. -/
theorem Valid.cell_lt {answer : Bool} {color : Color} (valid : search.Valid graph)
    (written : search.cell? answer = some (s, color)) : s < search.colors.size := by
  have known {color : Color} {t : StateId} (seen : search.colors[t]? = some color) (same : t = s) :
      s < search.colors.size := same ▸ (Array.getElem?_eq_some_iff.mp seen).1
  unfold cell? at written
  split at written
  next =>
    split at written
    next =>
      split at written
      next white => exact known white (by cases written; rfl)
      next => cases written
    next => cases written
  next frame outer path =>
    split at written
    next => cases written
    next =>
      split at written
      next =>
        split at written
        next white => exact known white.1 (by cases written; rfl)
        next => cases written
      next =>
        have grey : search.colors[frame.state]? = some .grey := (valid.grey _).mpr (by simp [path])
        exact known grey (by cases written; rfl)

/-- So many rounds of a search that nothing but its own steps brings to an end. It writes into its table without a look
at the bounds and crashes outside of them. -/
def runFor (graph : Graph W) (visit : V → Event W → V × Bool) : Nat → V → Search W → Option (V × Except Crash Unit)
  | 0, _, _ => none
  | rounds + 1, visitor, search =>
    match search.step graph with
    | .pass next =>
      match put search.colors (search.cell? true) with
      | .ok colors => runFor graph visit rounds visitor { next with colors }
      | .error fault => some (visitor, .error fault)
    | .ask event next =>
      let (visitor, answer) := visit visitor event
      match put search.colors (search.cell? answer) with
      | .ok colors => runFor graph visit rounds visitor { next answer with colors }
      | .error fault => some (visitor, .error fault)
    | .tell event next =>
      match put search.colors (search.cell? true) with
      | .ok colors => runFor graph visit rounds (visit visitor event).1 { next with colors }
      | .error fault => some (visitor, .error fault)
    | .fail s => some (visitor, .error (.graph (.invalidState s)))
    | .stop => some ((visit visitor .done).1, .ok ())

/-- A search never crashes, and it is over after a round for each event and for each root. -/
theorem runFor_eq (valid : search.Valid graph) (visit : V → Event W → V × Bool) (visitor : V) (rounds : Nat)
    (enough : (search.events graph visit visitor).length + search.roots.length < rounds) :
    search.runFor graph visit rounds visitor =
      some ((search.run graph visit visitor).1, (search.run graph visit visitor).2.mapError .graph) := by
  induction rounds generalizing search visitor with
  | zero => cases enough
  | succ rounds ih =>
    have written (answer : Bool) :
        put search.colors (search.cell? answer) = .ok (overwrite search.colors (search.cell? answer)) :=
      put_of_inside fun s color => valid.cell_lt
    have moves := step_moves graph search
    unfold runFor
    cases taken : search.step graph with
    | pass next =>
      rw [taken] at moves
      simp only [written, moves.overwrite_pass, run_pass taken]
      rw [events_pass taken] at enough
      refine ih (valid.step moves .pass) visitor ?_
      cases moves with
      | newRoot path running rest | oldRoot path running rest =>
        rw [rest, List.length_cons] at enough
        exact Nat.lt_of_succ_lt_succ enough
    | ask event next =>
      rw [taken] at moves
      simp only [written, moves.overwrite_ask, run_ask taken]
      rw [events_ask taken, List.length_cons] at enough
      refine ih (valid.step moves (.ask _)) _ ?_
      rw [moves.roots_ask]
      omega
    | tell event next =>
      rw [taken] at moves
      simp only [written, moves.overwrite_tell, run_tell taken]
      rw [events_tell taken, List.length_cons] at enough
      refine ih (valid.step moves .tell) _ ?_
      rw [moves.roots_tell]
      omega
    | fail s => simp [run_fail taken, Except.mapError]
    | stop => simp [run_stop taken, Except.mapError]

end Search

namespace Graph

variable {graph : Graph W}

theorem search_ends (graph : Graph W) (visit : V → Event W → V × Bool) (visitor : V) :
    Bounded graph (graph.events visit visitor) ∧
    (graph.events visit visitor).length ≤ 2 * graph.size + graph.totalArcs + 1 ∧
    Ending graph visit visitor (graph.events visit visitor) (graph.search visit visitor).2 ∧
    ((graph.search visit visitor).2 = .ok () → Agrees visit visitor (graph.events visit visitor) →
      graph.WellFormed) := by
  let kept (state : V × List (Event W)) (search : Search W) : Prop :=
    state.1 = hearing visit visitor state.2 ∧ Search.Logs graph visit visitor state.2 search
  let ended (outcome : (V × List (Event W)) × Except GraphError Unit) : Prop :=
    Bounded graph outcome.1.2 ∧ outcome.1.2.length ≤ 2 * graph.size + graph.totalArcs + 1 ∧
      Ending graph visit visitor outcome.1.2 outcome.2 ∧
      (outcome.2 = .ok () → Agrees visit visitor outcome.1.2 → graph.WellFormed)
  suffices recorded : ended (graph.search (recording visit) (visitor, [])) by
    rwa [search_recording] at recorded
  apply @Search.run_satisfies _ _ _ _ kept
  case holds => exact ⟨rfl, Search.begin_logs graph visit visitor⟩
  case pass => exact fun _ _ _ holds moves => ⟨holds.1, holds.2.pass moves⟩
  case ask =>
    intro state search event next holds moves
    obtain ⟨same, logs⟩ := holds
    have asked := logs.ask moves
    exact ⟨(congrArg (fun visitor => (visit visitor event).1) same).trans hearing_concat.symm, by rwa [← same] at asked⟩
  case tell =>
    intro state search event next holds moves
    obtain ⟨same, logs⟩ := holds
    exact ⟨(congrArg (fun visitor => (visit visitor event).1) same).trans hearing_concat.symm, logs.tell moves⟩
  case fail =>
    intro state search s holds moves
    obtain ⟨-, logs⟩ := holds
    exact ⟨logs.bounded, Nat.le_succ_of_le (logs.bounded.length_le logs.undone), logs.fail moves, nofun⟩
  case stop =>
    intro state search holds moves
    obtain ⟨-, logs⟩ := holds
    refine ⟨logs.bounded.done, ?_, logs.stop moves, fun _ agrees => logs.wellFormed moves (agrees_concat.mp agrees).1⟩
    simpa [recording] using logs.bounded.length_le logs.undone

/-- On any graph a search comes to an end, and it tells the visitor of no state and no arc more than once. It fails if
and only if it comes to a number that is no state, at the first such number, and a visitor that does not stop it sees
it succeed if and only if the graph names states only. It never writes outside of its table. -/
theorem search_withstands (graph : Graph W) (visit : V → Event W → V × Bool) (visitor : V) :
    (graph.search visit visitor).1 = hearing visit visitor (graph.events visit visitor) ∧
    Bounded graph (graph.events visit visitor) ∧
    Ending graph visit visitor (graph.events visit visitor) (graph.search visit visitor).2 ∧
    (Agrees visit visitor (graph.events visit visitor) →
      ((graph.search visit visitor).2 = .ok () ↔ graph.WellFormed)) ∧
    ∀ rounds, 3 * graph.size + graph.totalArcs + 2 < rounds →
      (Search.begin graph).runFor graph visit rounds visitor =
        some ((graph.search visit visitor).1, (graph.search visit visitor).2.mapError .graph) := by
  obtain ⟨bounded, length, ending, formed⟩ := search_ends graph visit visitor
  refine ⟨search_hearing graph visit visitor, bounded, ending, fun agrees => ⟨fun done => formed done agrees, ?_⟩, ?_⟩
  · exact fun formed => search_ok formed visit visitor
  · intro rounds enough
    refine Search.runFor_eq (Search.begin_valid graph) visit visitor rounds (Nat.lt_of_le_of_lt ?_ enough)
    have roots : (Search.begin graph).roots.length ≤ graph.size + 1 := by
      cases start : graph.start <;> simp [Search.begin, start]
    have told : ((Search.begin graph).events graph visit visitor).length ≤ 2 * graph.size + graph.totalArcs + 1 :=
      length
    omega

end Graph

end Transducer
