import Transducer.Proofs.Compaction
import Transducer.Proofs.Ledger

/-! When a graph and the book kept beside it agree, what is read by position is what is written down under
the tags. They go on agreeing under every call that leaves the states at their positions. -/

namespace Transducer

variable {W : Type} {graph : Graph W} {book : Book W} {names : List Tag} {ledger : Ledger W} {t : Tag}
variable {state : State W}

/-- A state is the one that the ledger has under the tag. Every arc of it leads to a tag. -/
structure Describes (names : List Tag) (ledger : Ledger W) (t : Tag) (state : State W) : Prop where
  final : state.final = ledger.finals t
  arcs : state.arcs.toList.map (Arc.name? names) = (ledger.entries t).map fun entry => some entry.2

namespace Describes

theorem length (described : Describes names ledger t state) : (ledger.entries t).length = state.arcs.size := by
  simpa using (congrArg List.length described.arcs).symm

theorem exists_target (described : Describes names ledger t state) {arc : Arc W} (member : arc ∈ state.arcs) :
    ∃ target, names[arc.target]? = some target := by
  have listed : arc.name? names ∈ (ledger.entries t).map fun entry => some entry.2 :=
    described.arcs ▸ List.mem_map_of_mem (Array.mem_toList_iff.mpr member)
  obtain ⟨entry, _, same⟩ := List.mem_map.mp listed
  obtain ⟨target, led, _⟩ := Option.map_eq_some_iff.mp same.symm
  exact ⟨target, led⟩

/-- Only the final weight, the arcs and the tags that they lead to are looked at. -/
theorem congr {later : Ledger W} {names' : List Tag} (described : Describes names ledger t state)
    (finals : later.finals t = ledger.finals t) (entries : later.entries t = ledger.entries t)
    (led : ∀ arc ∈ state.arcs, names'[arc.target]? = names[arc.target]?) : Describes names' later t state := by
  refine ⟨described.final.trans finals.symm, ?_⟩
  rw [entries, ← described.arcs]
  apply List.map_congr_left
  intro arc member
  rw [Arc.name?, Arc.name?, led arc (Array.mem_toList_iff.mp member)]

theorem redirect (described : Describes names ledger t state) (doomed : List Tag) :
    Describes (names.filter (· ∉ doomed)) (ledger.delete doomed) t
      (state.redirect (Graph.newNumber? (names.map (· ∉ doomed)))) := by
  have moved (arc : Arc W) :
      ((Graph.newNumber? (names.map (· ∉ doomed)) arc.target).map fun target => ({ arc with target } : Arc W)).map
        (Arc.name? (names.filter (· ∉ doomed))) =
      ((arc.name? names).filter fun named => named.target ∉ doomed).map some := by
    have lookup := congrArg (Option.map (Option.map fun target => ({ arc with target } : Arc W)))
      (Graph.filter_getElem?_newNumber? (· ∉ doomed) names arc.target)
    rw [Option.map_map] at lookup ⊢
    apply lookup.trans
    rw [Arc.name?]
    cases names[arc.target]? with
    | none => rfl
    | some u => by_cases gone : u ∈ doomed <;> simp [gone, Option.filter_some]
  refine ⟨described.final, ?_⟩
  calc (state.redirect (Graph.newNumber? (names.map (· ∉ doomed)))).arcs.toList.map
        (Arc.name? (names.filter (· ∉ doomed)))
    _ = (state.arcs.toList.map (Arc.name? names)).filterMap fun named =>
        (named.filter fun arc => arc.target ∉ doomed).map some := by
      rw [State.redirect, Array.toList_filterMap, List.map_filterMap, List.filterMap_map]
      exact List.filterMap_congr fun arc _ => moved arc
    _ = ((ledger.entries t).filter fun entry => entry.2.target ∉ doomed).map fun entry => some entry.2 := by
      rw [described.arcs, List.filterMap_map, ← List.filterMap_eq_map, List.filterMap_filter]
      apply List.filterMap_congr
      intro entry _
      by_cases gone : entry.2.target ∈ doomed <;> simp [gone, Option.filter_some]
    _ = ((ledger.delete doomed).entries t).map fun entry => some entry.2 := by rw [Ledger.entries_delete]

end Describes

namespace Book

/-- The book has the same states, start, final weights and arcs as the graph. -/
structure Tells (book : Book W) (graph : Graph W) : Prop where
  sound : book.ledger.Sound
  sized : book.names.length = graph.size
  distinct : book.names.Nodup
  alive : ∀ t, t ∈ book.names ↔ book.ledger.Alive t
  start : (graph.start.map fun s => book.names[s]?) = book.ledger.graph.start.map some
  states : ∀ (s : StateId) t state, book.names[s]? = some t → graph.states[s]? = some state →
    Describes book.names book.ledger t state

theorem empty_tells : Tells {} (Graph.empty : Graph W) where
  sound := ⟨by simp, by simp, by simp, by simp, by simp, fun _ _ => rfl⟩
  sized := rfl
  distinct := .nil
  alive t := by simp [Ledger.Alive]
  start := rfl
  states s t state named found := by simp at named

namespace Tells

theorem named_iff (tells : Tells book graph) {s : StateId} : (∃ t, book.names[s]? = some t) ↔ s < graph.size := by
  simp [← tells.sized, ← Option.isSome_iff_exists]

theorem exists_state (tells : Tells book graph) {s : StateId} (named : book.names[s]? = some t) :
    ∃ state, graph.states[s]? = some state ∧ Describes book.names book.ledger t state := by
  obtain ⟨state, found⟩ := Graph.exists_state (tells.named_iff.mp ⟨t, named⟩)
  exact ⟨state, found, tells.states s t state named found⟩

theorem exists_name (tells : Tells book graph) {s : StateId} (found : graph.states[s]? = some state) :
    ∃ t, book.names[s]? = some t ∧ Describes book.names book.ledger t state := by
  obtain ⟨t, named⟩ := tells.named_iff.mpr (Array.getElem?_eq_some_iff.mp found).1
  exact ⟨t, named, tells.states s t state named found⟩

theorem wellFormed (tells : Tells book graph) : graph.WellFormed := by
  constructor
  case start =>
    intro s start
    have same := tells.start
    rw [start, Option.map_some] at same
    obtain ⟨t, _, named⟩ := Option.map_eq_some_iff.mp same.symm
    exact tells.named_iff.mp ⟨t, named.symm⟩
  case targets =>
    intro state member arc inside
    obtain ⟨s, found⟩ := Array.getElem?_of_mem member
    obtain ⟨t, _, described⟩ := tells.exists_name found
    exact tells.named_iff.mp (described.exists_target inside)

theorem created (tells : Tells book graph) {s : StateId} (named : book.names[s]? = some t) :
    t < book.ledger.created :=
  ((tells.alive t).mp (List.mem_of_getElem? named)).1

theorem position_inj (tells : Tells book graph) {s s' : StateId} (first : book.names[s]? = some t)
    (second : book.names[s']? = some t) : s = s' :=
  List.getElem?_inj (List.getElem?_eq_some_iff.mp first).1 tells.distinct |>.mp (first.trans second.symm)

theorem read (tells : Tells book graph) : graph.read book.names = book.ledger.graph := by
  have lookup (t : Tag) : (book.names.idxOf? t = none ∧ ¬ book.ledger.Alive t) ∨
      ∃ s state, book.names.idxOf? t = some s ∧ book.ledger.Alive t ∧ graph.states[s]? = some state ∧
        Describes book.names book.ledger t state := by
    rw [← tells.alive]
    cases position : book.names.idxOf? t with
    | none => exact .inl ⟨rfl, List.idxOf?_eq_none_iff.mp position⟩
    | some s =>
      obtain ⟨inside, same, _⟩ := List.idxOf?_eq_some_iff.mp position
      have named : book.names[s]? = some t := by simpa [List.getElem?_eq_getElem inside] using same
      obtain ⟨state, found, described⟩ := tells.exists_state named
      exact .inr ⟨s, state, rfl, List.mem_of_getElem? named, found, described⟩
  ext1
  · have start := congrArg (Option.bind · id) tells.start
    simpa [Option.bind_map, Function.comp_def, Graph.read] using start
  · funext t
    rcases lookup t with ⟨absent, dead⟩ | ⟨s, state, position, alive, found, described⟩
    · simp [Graph.read, Ledger.graph, absent, dead]
    · simp [Graph.read, Ledger.graph, position, alive, found, described.final]
  · funext t
    rcases lookup t with ⟨absent, dead⟩ | ⟨s, state, position, alive, found, described⟩
    · simp [Graph.read, Ledger.graph, absent, dead]
    · simp only [Graph.read, Ledger.graph, position, alive, if_true, Graph.arcsFrom_of_getElem? found]
      have listed := congrArg (List.filterMap id) described.arcs
      simpa [List.filterMap_map, Function.comp_def] using listed

theorem modify {s : StateId} {later : Ledger W} {change : State W → State W} (tells : Tells book graph)
    (named : book.names[s]? = some t) (sound : later.Sound) (alive : ∀ u, later.Alive u ↔ book.ledger.Alive u)
    (chosen : later.chosen = book.ledger.chosen) (finals : ∀ u, u ≠ t → later.finals u = book.ledger.finals u)
    (entries : ∀ u, u ≠ t → later.entries u = book.ledger.entries u)
    (described : ∀ state, Describes book.names book.ledger t state → Describes book.names later t (change state)) :
    Tells { book with ledger := later } (graph.modify s change) := by
  constructor
  case sound => exact sound
  case sized => simpa [Graph.size, Graph.modify] using tells.sized
  case distinct => exact tells.distinct
  case alive => exact fun u => (tells.alive u).trans (alive u).symm
  case start =>
    rw [Ledger.start_congr chosen fun u _ => alive u]
    exact tells.start
  case states =>
    intro s' u state named' found
    rw [Graph.modify, Array.getElem?_modify] at found
    split at found
    next same =>
      subst same
      obtain rfl : t = u := Option.some.inj (named.symm.trans named')
      obtain ⟨before, original, rfl⟩ := Option.map_eq_some_iff.mp found
      exact described before (tells.states s t before named original)
    next different =>
      have other : u ≠ t := fun same => different (tells.position_inj named (same ▸ named'))
      exact (tells.states s' u state named' found).congr (finals u other) (entries u other) fun _ _ => rfl

/-- Changing a state that is not there fails, and nothing is written down. -/
theorem update {s : StateId} {change : State W → State W} {record : Ledger W → Tag → Ledger W}
    (tells : Tells book graph)
    (kept : ∀ t, book.names[s]? = some t → Tells { book with ledger := record book.ledger t } (graph.modify s change)) :
    Tells (book.write s record) ((graph.update s change).toOption.getD graph) := by
  unfold Graph.update write
  split
  next t named =>
    rw [if_pos (tells.named_iff.mp ⟨t, named⟩)]
    exact kept t named
  next absent =>
    have outside : ¬ s < graph.size := by simpa [tells.sized] using absent
    rw [if_neg outside]
    exact tells

theorem setFinal (tells : Tells book graph) (s : StateId) (final : Option W) :
    Tells (book.write s (Ledger.setFinal · final))
      ((graph.update s fun state => { state with final }).toOption.getD graph) := by
  apply tells.update
  intro t named
  have sound := tells.sound.setFinal final (tells.created named)
  refine tells.modify named sound (fun u => .rfl) rfl (fun u other => if_neg other) (fun u _ => rfl) ?_
  intro state described
  exact ⟨(if_pos rfl).symm, described.arcs⟩

theorem setStart (tells : Tells book graph) (s : StateId) :
    Tells (book.write s Ledger.choose) (graph.after (.setStart s)) := by
  unfold write
  split
  next t named =>
    have inside : s < graph.size := tells.named_iff.mp ⟨t, named⟩
    have done : graph.call (.setStart s) = .ok { graph with start := some s } := by
      simp [Graph.call, Graph.setStart, Graph.check, inside]
    have alive := (tells.alive t).mp (List.mem_of_getElem? named)
    rw [Graph.after_of_ok done]
    constructor
    case sound => exact tells.sound.choose alive.1
    case sized => exact tells.sized
    case distinct => exact tells.distinct
    case alive => exact tells.alive
    case start =>
      show some book.names[s]? = ((some t).filter fun t => book.ledger.Alive t).map some
      rw [named, Option.filter_some_pos (by simpa using alive)]
      rfl
    case states =>
      exact fun s' u state named found => (tells.states s' u state named found).congr rfl rfl fun _ _ => rfl
  next absent =>
    have outside : ¬ s < graph.size := by simpa [tells.sized] using absent
    have failed : graph.call (.setStart s) = .error (.invalidState s) := by
      simp [Graph.call, Graph.setStart, Graph.check, outside]
    rw [Graph.after_of_error failed]
    exact tells

theorem addArc (tells : Tells book graph) (s : StateId) (arc : Arc W) :
    Tells (book.addArc s arc) (graph.after (.addArc s arc)) := by
  unfold Book.addArc
  split
  next target led =>
    have inside : arc.target < graph.size := tells.named_iff.mp ⟨target, led⟩
    have same : graph.call (.addArc s arc) = graph.update s fun state => state.addArc arc := by
      simp only [Graph.call, Graph.addArc, Graph.check, inside, if_true]
      rfl
    rw [Graph.after, same]
    apply tells.update
    intro t named
    have alive := (tells.alive target).mp (List.mem_of_getElem? led)
    have inserted (u : Tag) : (book.ledger.insert t { arc with target }).entries u =
        book.ledger.entries u ++ if t = u then [(book.ledger.inserted.length, { arc with target })] else [] :=
      Ledger.entries_insert tells.sound alive
    have sound : (book.ledger.insert t { arc with target }).Sound :=
      tells.sound.insert (tells.created named) alive.1
    refine tells.modify named sound (fun u => .rfl) rfl (fun u _ => rfl) (fun u other => ?_) ?_
    · simp [inserted u, Ne.symm other]
    · intro state described
      refine ⟨described.final, ?_⟩
      simp [State.addArc, inserted t, described.arcs, Arc.name?, led]
  next absent =>
    have outside : ¬ arc.target < graph.size := by simpa [tells.sized] using absent
    have failed : graph.call (.addArc s arc) = .error (.invalidState arc.target) := by
      simp only [Graph.call, Graph.addArc, Graph.check, outside, if_false]
      rfl
    rw [Graph.after_of_error failed]
    exact tells

theorem strike {s : StateId} {named : List (Nat × Arc W)} (kept : List (Arc W) → List (Arc W))
    (tells : Tells book graph) (position : book.names[s]? = some t)
    (inside : ∀ entry ∈ named, entry ∈ book.ledger.entries t)
    (same : ∀ state, Describes book.names book.ledger t state →
      (kept state.arcs.toList).map (Arc.name? book.names) =
        ((book.ledger.strike named).entries t).map fun entry => some entry.2) :
    Tells { book with ledger := book.ledger.strike named }
      (graph.modify s fun state => { state with arcs := (kept state.arcs.toList).toArray }) := by
  refine tells.modify position (tells.sound.strike inside) (fun u => .rfl) rfl (fun u _ => rfl)
    (fun u other => Ledger.entries_strike_other other inside) ?_
  intro state described
  exact ⟨described.final, same state described⟩

theorem deleteAllArcs (tells : Tells book graph) (s : StateId) :
    Tells (book.write s fun ledger t => ledger.strike (ledger.entries t))
      ((graph.deleteAllArcs s).toOption.getD graph) := by
  apply tells.update
  intro t named
  refine tells.strike (fun _ => []) named (fun _ member => member) fun state described => ?_
  have none : (book.ledger.entries t).filter
      (fun entry => decide (entry.1 ∉ (book.ledger.entries t).map Prod.fst)) = [] := by
    rw [List.filter_eq_nil_iff]
    intro entry member
    simpa using ⟨entry.2, member⟩
  rw [Ledger.entries_strike, none]
  rfl

/-- Deleting fails if a position is not there, and then nothing is struck. -/
theorem deleteArcs (tells : Tells book graph) (s : StateId) (positions : List Nat) :
    Tells (book.write s (strikeAt positions)) ((graph.deleteArcs s positions).toOption.getD graph) := by
  unfold write
  split
  next t named =>
    obtain ⟨state, found, described⟩ := tells.exists_state named
    have sized := described.length
    unfold strikeAt
    rw [sized]
    split
    next live =>
      rw [Graph.deleteArcs_of_live found live]
      refine tells.strike (Graph.dropAt positions) named ?_ fun other described => ?_
      · intro entry member
        obtain ⟨position, _, found⟩ := List.mem_filterMap.mp member
        exact List.mem_of_getElem? found
      · rw [Ledger.entries_strike, ← Graph.dropAt_eq_filter (Ledger.nodup_entries _ t) (sized ▸ live),
          ← Graph.dropAt_map, ← Graph.dropAt_map, described.arcs]
    next lost =>
      obtain ⟨error, failed⟩ := Graph.deleteArcs_of_not_live found lost
      rw [failed]
      exact tells
  next absent =>
    have outside : graph.states[s]? = none := by
      rw [List.getElem?_eq_none_iff, tells.sized] at absent
      exact Array.getElem?_eq_none absent
    rw [Graph.deleteArcs_of_absent outside]
    exact tells

theorem addState (tells : Tells book graph) : Tells book.addState graph.addState := by
  have sound := tells.sound
  have fresh : book.ledger.created ∉ book.ledger.deleted := fun member =>
    Nat.lt_irrefl _ (sound.deleted _ member)
  have named (s : StateId) (inside : s < graph.size) :
      (book.names ++ [book.ledger.created])[s]? = book.names[s]? :=
    List.getElem?_append_left (tells.sized ▸ inside)
  constructor
  case sound => exact sound.create
  case sized => simp [Book.addState, Graph.addState, Graph.size, tells.sized]
  case distinct =>
    have absent : book.ledger.created ∉ book.names := fun member =>
      Nat.lt_irrefl _ ((tells.alive _).mp member).1
    simpa [Book.addState, List.nodup_append] using ⟨tells.distinct, fun u member same => absent (same ▸ member)⟩
  case alive =>
    intro u
    rw [Book.addState, List.mem_append, tells.alive, List.mem_singleton]
    by_cases newest : u = book.ledger.created
    · subst newest
      simp [Ledger.Alive, Ledger.create, fresh]
    · simp only [newest, or_false, Ledger.Alive, Ledger.create, Nat.lt_succ_iff_lt_or_eq]
  case start =>
    show (graph.start.map fun s => (book.names ++ [book.ledger.created])[s]?) = _
    rw [Book.addState, Ledger.start_create sound, ← tells.start]
    exact Option.map_congr fun s start => named s (tells.wellFormed.start s start)
  case states =>
    intro s u state listed found
    rw [Book.addState, List.getElem?_append] at listed
    rw [Graph.addState, Array.getElem?_push] at found
    split at found
    next last =>
      obtain rfl := Option.some.inj found
      rw [if_neg (by simp [tells.sized, last, Graph.size]), last] at listed
      obtain rfl : u = book.ledger.created := by simpa [tells.sized, Graph.size, eq_comm] using listed
      refine ⟨(sound.finals _ (Nat.le_refl _)).symm, ?_⟩
      simp [Book.addState, Ledger.entries_create sound, Ledger.entries_created sound]
    next =>
      have inside : s < graph.size := (Array.getElem?_eq_some_iff.mp found).1
      rw [if_pos (tells.sized ▸ inside)] at listed
      refine (tells.states s u state listed found).congr rfl (Ledger.entries_create sound) fun arc member => ?_
      exact named _ (tells.wellFormed.targets state (Array.mem_of_getElem? found) arc member)

end Tells

end Book

end Transducer
