import Transducer.Proofs.EventOrder
import Transducer.Proofs.Sorting

/-! The shape of a whole search. When no visitor stops it, the events between the discovery of a state and its
end form an interval, the intervals are nested like the tree of the search, and every arc of the graph is met
once, inside the interval of its source. -/

namespace Transducer
open Relation

variable {W V : Type}

def DiscoveredAt (heard : List (Event W)) (s : StateId) (i : Nat) : Prop :=
  ∃ root, heard[i]? = some (.discover s root)

def FinishedAt (heard : List (Event W)) (s : StateId) (j : Nat) : Prop :=
  ∃ parent, heard[j]? = some (.finish s parent)

/-- The arc is met, as an arc of whatever kind. -/
def ReportedAt (heard : List (Event W)) (source : StateId) (arc : Arc W) (k : Nat) : Prop :=
  ∃ event, heard[k]? = some event ∧ event.report? = some (source, arc)

/-- The state is discovered before this place and not finished before it. -/
def OpenAt (heard : List (Event W)) (s : StateId) (k : Nat) : Prop :=
  (∃ i < k, DiscoveredAt heard s i) ∧ ∀ j < k, ¬ FinishedAt heard s j

/-- A depth-first search of the whole graph. -/
structure DepthFirst (graph : Graph W) (heard : List (Event W)) : Prop where
  /-- Each state is discovered once and finished once, and then later. -/
  interval : ∀ s < graph.size, ∃ i j, i < j ∧ (∀ i', DiscoveredAt heard s i' ↔ i' = i) ∧
    ∀ j', FinishedAt heard s j' ↔ j' = j
  state : ∀ s k, DiscoveredAt heard s k ∨ FinishedAt heard s k → s < graph.size
  /-- What is discovered inside an interval is finished inside it. -/
  nested : ∀ s t i j i' j', DiscoveredAt heard s i → FinishedAt heard s j → DiscoveredAt heard t i' →
    FinishedAt heard t j' → i < i' → j < i' ∨ j' < j
  /-- The parent of a state is the source of the tree arc to it, and the others are the roots. -/
  parent : ∀ s parent, .finish s parent ∈ heard →
    (∀ p, parent = some p ↔ TreeArc heard p s) ∧ (parent = none ↔ .discover s s ∈ heard)
  /-- Each arc is met once, and the arcs of a state in their order. -/
  reports : ∀ s, reportsFrom s heard = graph.arcsFrom s
  inside : ∀ source arc k, ReportedAt heard source arc k →
    ∃ i j, DiscoveredAt heard source i ∧ FinishedAt heard source j ∧ i < k ∧ k < j
  tree : ∀ source arc k, ReportedAt heard source arc k →
    (heard[k]? = some (.treeArc source arc) ↔ ∀ i < k, ¬ DiscoveredAt heard arc.target i)
  discovers : ∀ source arc k, heard[k]? = some (.treeArc source arc) → DiscoveredAt heard arc.target (k + 1)
  back : ∀ source arc k, ReportedAt heard source arc k →
    (heard[k]? = some (.backArc source arc) ↔ OpenAt heard arc.target k)
  ancestor : ∀ source arc k, ReportedAt heard source arc k →
    (heard[k]? = some (.backArc source arc) ↔ ReflTransGen (TreeArc heard) arc.target source)
  cross : ∀ source arc k, ReportedAt heard source arc k →
    (heard[k]? = some (.crossArc source arc) ↔ ∃ j < k, FinishedAt heard arc.target j)
  ends : ∃ before, heard = before ++ [.done] ∧ .done ∉ before

section Places

variable {heard : List (Event W)} {s t : StateId} {i j k : Nat}

theorem mem_take_iff {event : Event W} : event ∈ heard.take k ↔ ∃ i < k, heard[i]? = some event := by
  rw [List.mem_iff_getElem?]
  constructor
  · intro given
    obtain ⟨i, found⟩ := given
    obtain ⟨bound, _⟩ := List.getElem?_eq_some_iff.mp found
    have less : i < k := by
      rw [List.length_take] at bound
      omega
    exact ⟨i, less, by rwa [List.getElem?_take_of_lt less] at found⟩
  · intro given
    obtain ⟨i, less, found⟩ := given
    exact ⟨i, by rwa [List.getElem?_take_of_lt less]⟩

/-- What is picked from the events is what some event that would be picked was made from. -/
theorem mem_filterMap_made {α : Type} {pick : Event W → Option StateId} {make : α → Event W}
    (made : ∀ event, pick event = some s ↔ ∃ a, make a = event) : s ∈ heard.filterMap pick ↔ ∃ a, make a ∈ heard := by
  rw [List.mem_filterMap]
  constructor
  · intro given
    obtain ⟨event, member, same⟩ := given
    obtain ⟨a, rfl⟩ := (made event).mp same
    exact ⟨a, member⟩
  · intro given
    obtain ⟨a, member⟩ := given
    exact ⟨make a, member, (made _).mpr ⟨a, rfl⟩⟩

theorem exists_mem_take {α : Type} {make : α → Event W} :
    (∃ a, make a ∈ heard.take k) ↔ ∃ i < k, ∃ a, heard[i]? = some (make a) := by
  simp only [mem_take_iff]
  constructor
  · intro given
    obtain ⟨a, i, less, found⟩ := given
    exact ⟨i, less, a, found⟩
  · intro given
    obtain ⟨i, less, a, found⟩ := given
    exact ⟨a, i, less, found⟩

theorem mem_discoveries_iff : s ∈ discoveries heard ↔ ∃ root, .discover s root ∈ heard :=
  mem_filterMap_made fun event => by cases event <;> simp [Event.discovered?, eq_comm]

theorem mem_finishes_iff : s ∈ finishes heard ↔ ∃ parent, .finish s parent ∈ heard :=
  mem_filterMap_made fun event => by cases event <;> simp [Event.finished?, eq_comm]

theorem mem_discoveries_take : s ∈ discoveries (heard.take k) ↔ ∃ i < k, DiscoveredAt heard s i :=
  mem_discoveries_iff.trans exists_mem_take

theorem mem_finishes_take : s ∈ finishes (heard.take k) ↔ ∃ j < k, FinishedAt heard s j :=
  mem_finishes_iff.trans exists_mem_take

theorem mem_openStates_take : s ∈ openStates (heard.take k) ↔ OpenAt heard s k := by
  rw [mem_openStates, mem_discoveries_take, mem_finishes_take, OpenAt]
  simp only [not_exists, not_and]

/-- Only the last state discovered of those that are open is innermost. -/
theorem finished_of_inner (distinct : (discoveries heard).Nodup) (inner : (openStates heard).head? = some s)
    (first : DiscoveredAt heard s i) (second : DiscoveredAt heard t k) (later : i < k) : t ∈ finishes heard := by
  by_contra unfinished
  -- Cut after the discovery of `s`: `t` is discovered behind the cut, so it would be open and further in.
  have split : heard = heard.take (i + 1) ++ heard.drop (i + 1) := (List.take_append_drop _ _).symm
  have early : s ∈ discoveries (heard.take (i + 1)) := mem_discoveries_take.mpr ⟨i, Nat.lt_succ_self i, first⟩
  have late : t ∈ discoveries (heard.drop (i + 1)) := by
    obtain ⟨root, found⟩ := second
    refine mem_discoveries_iff.mpr ⟨root, List.mem_iff_getElem?.mpr ⟨k - (i + 1), ?_⟩⟩
    rw [List.getElem?_drop, Nat.add_sub_cancel' later, found]
  rw [split, discoveries_append] at distinct
  have different : s ∉ discoveries (heard.drop (i + 1)) := fun member =>
    List.disjoint_of_nodup_append distinct early member
  have opened : openStates heard = ((discoveries (heard.drop (i + 1))).reverse.filter fun s => s ∉ finishes heard) ++
      ((discoveries (heard.take (i + 1))).reverse.filter fun s => s ∉ finishes heard) := by
    rw [openStates, ← List.filter_append, ← List.reverse_append, ← discoveries_append, ← split]
  have member : t ∈ (discoveries (heard.drop (i + 1))).reverse.filter fun s => s ∉ finishes heard := by
    simpa using ⟨late, unfinished⟩
  rw [opened, List.head?_append_of_ne_nil _ (List.ne_nil_of_mem member)] at inner
  have inside := (List.mem_filter.mp (List.mem_of_head? inner)).1
  exact different (List.mem_reverse.mp inside)

end Places

namespace Orderly

variable {graph : Graph W} {heard : List (Event W)} {s t p source root : StateId} {arc : Arc W} {i j k : Nat}

theorem take (orderly : Orderly graph heard) (k : Nat) : Orderly graph (heard.take k) := by
  intro i event found
  have bound := (List.getElem?_eq_some_iff.mp found).1
  have less : i < k := by
    rw [List.length_take] at bound
    omega
  rw [List.getElem?_take_of_lt less] at found
  rw [List.take_take, Nat.min_eq_left (Nat.le_of_lt less)]
  exact orderly i event found

theorem fresh (orderly : Orderly graph heard) (discovered : DiscoveredAt heard s i) :
    s < graph.size ∧ s ∉ discoveries (heard.take i) := by
  obtain ⟨root, found⟩ := discovered
  cases orderly i _ found with
  | root inside fresh free closed => exact ⟨inside, fresh⟩
  | child inside fresh expected other parent => exact ⟨inside, fresh⟩

theorem discovered_once (orderly : Orderly graph heard) (first : DiscoveredAt heard s i)
    (second : DiscoveredAt heard s j) : i = j := by
  rcases Nat.lt_trichotomy i j with less | same | less
  · exact absurd (mem_discoveries_take.mpr ⟨i, less, first⟩) (orderly.fresh second).2
  · exact same
  · exact absurd (mem_discoveries_take.mpr ⟨j, less, second⟩) (orderly.fresh first).2

/-- A state that is finished is the innermost one. -/
theorem finish_inner (orderly : Orderly graph heard) (finished : FinishedAt heard s j) :
    (openStates (heard.take j)).head? = some s := by
  obtain ⟨parent, found⟩ := finished
  cases orderly j _ found with
  | finish inner free parent root => rw [inner, List.head?_cons]

theorem finish_open (orderly : Orderly graph heard) (finished : FinishedAt heard s j) : OpenAt heard s j :=
  mem_openStates_take.mp (List.mem_of_head? (orderly.finish_inner finished))

theorem finished_once (orderly : Orderly graph heard) (first : FinishedAt heard s i) (second : FinishedAt heard s j) :
    i = j := by
  rcases Nat.lt_trichotomy i j with less | same | less
  · exact absurd first ((orderly.finish_open second).2 i less)
  · exact same
  · exact absurd second ((orderly.finish_open first).2 j less)

theorem discovered_lt (orderly : Orderly graph heard) (discovered : DiscoveredAt heard s i)
    (finished : FinishedAt heard s j) : i < j := by
  obtain ⟨i', less, first⟩ := (orderly.finish_open finished).1
  exact orderly.discovered_once discovered first ▸ less

theorem distinct (orderly : Orderly graph heard) : (discoveries heard).Nodup := by
  induction heard using List.reverseRecOn with
  | nil => exact .nil
  | append_singleton heard event ih =>
    obtain ⟨before, follows⟩ := orderly_concat.mp orderly
    have same (silent : event.discovered? = none) : (discoveries (heard ++ [event])).Nodup := by
      simpa [silent] using ih before
    cases follows with
    | root inside fresh free closed => simpa [Event.discovered?] using (ih before).concat fresh
    | child inside fresh expected other parent => simpa [Event.discovered?] using (ih before).concat fresh
    | _ => exact same rfl

/-- What is discovered later and before the end of a state is finished by then. -/
theorem nested (orderly : Orderly graph heard) (first : DiscoveredAt heard s i) (finished : FinishedAt heard s j)
    (second : DiscoveredAt heard t k) (later : i < k) (before : k < j) : ∃ j' < j, FinishedAt heard t j' := by
  have inner := orderly.finish_inner finished
  have kept {u : StateId} {n : Nat} (less : n < j) (discovered : DiscoveredAt heard u n) :
      DiscoveredAt (heard.take j) u n := by
    obtain ⟨root, found⟩ := discovered
    exact ⟨root, by rwa [List.getElem?_take_of_lt less]⟩
  have early := kept (Nat.lt_trans later before) first
  exact mem_finishes_take.mp (finished_of_inner (orderly.take j).distinct inner early (kept before second) later)

/-- Only arcs of the innermost state are met. -/
theorem report_inner (orderly : Orderly graph heard) (reported : ReportedAt heard source arc k) :
    (openStates (heard.take k)).head? = some source := by
  obtain ⟨event, found, about⟩ := reported
  cases orderly k _ found with
  | tree inner free fresh => cases about; exact inner
  | back inner free opened => cases about; exact inner
  | cross inner free left => cases about; exact inner
  | _ => cases about

theorem report_open (orderly : Orderly graph heard) (reported : ReportedAt heard source arc k) :
    OpenAt heard source k :=
  mem_openStates_take.mp (List.mem_of_head? (orderly.report_inner reported))

/-- An arc is of one kind, by what is known of its target. -/
theorem report_cases (orderly : Orderly graph heard) (reported : ReportedAt heard source arc k) :
    heard[k]? = some (.treeArc source arc) ∧ (∀ i < k, ¬ DiscoveredAt heard arc.target i) ∨
    heard[k]? = some (.backArc source arc) ∧ OpenAt heard arc.target k ∨
    heard[k]? = some (.crossArc source arc) ∧ ∃ j < k, FinishedAt heard arc.target j := by
  obtain ⟨event, found, about⟩ := reported
  cases orderly k _ found with
  | tree inner free fresh =>
    cases about
    rw [mem_discoveries_take] at fresh
    exact .inl ⟨found, fun i less discovered => fresh ⟨i, less, discovered⟩⟩
  | back inner free opened =>
    cases about
    exact .inr (.inl ⟨found, mem_openStates_take.mp opened⟩)
  | cross inner free left =>
    cases about
    exact .inr (.inr ⟨found, mem_finishes_take.mp left⟩)
  | _ => cases about

theorem closed (orderly : Orderly graph heard) : finishes heard ⊆ discoveries heard := by
  intro s finished
  obtain ⟨parent, member⟩ := mem_finishes_iff.mp finished
  obtain ⟨j, found⟩ := List.mem_iff_getElem?.mp member
  obtain ⟨i, _, root, discovered⟩ := (orderly.finish_open ⟨parent, found⟩).1
  exact mem_discoveries_iff.mpr ⟨root, List.mem_of_getElem? discovered⟩

/-- Each open state was discovered from the next outer one. -/
theorem linked (orderly : Orderly graph heard) :
    (openStates heard).IsChain fun inner outer => TreeArc heard outer inner := by
  induction heard using List.reverseRecOn with
  | nil => exact .nil
  | append_singleton heard event ih =>
    obtain ⟨before, follows⟩ := orderly_concat.mp orderly
    have linked : (openStates heard).IsChain fun inner outer => TreeArc (heard ++ [event]) outer inner :=
      (ih before).imp fun _ _ => TreeArc.mono
    have same (undiscovered : event.discovered? = none) (unfinished : event.finished? = none) :
        (openStates (heard ++ [event])).IsChain fun inner outer => TreeArc (heard ++ [event]) outer inner := by
      rwa [openStates_of_silent undiscovered unfinished]
    cases follows with
    | root inside fresh free closed =>
      rw [openStates_discover fun finished => fresh (before.closed finished), closed]
      exact .singleton _
    | child inside fresh expected other parent =>
      rw [openStates_discover fun finished => fresh (before.closed finished)]
      exact List.isChain_cons.mpr ⟨fun p outer => (parent p outer).mono, linked⟩
    | @finish s outer inner free parent root =>
      have distinct : (s :: outer).Nodup := inner ▸ (List.nodup_reverse.mpr before.distinct).filter _
      rw [inner] at linked
      rw [openStates_finish_inner inner distinct]
      exact linked.tail
    | _ => exact same rfl rfl

/-- After a tree arc its target is discovered at once, and not as a root. -/
theorem tree_discovers (orderly : Orderly graph heard) (found : heard[k]? = some (.treeArc source arc))
    (more : k + 1 < heard.length) : ∃ root, heard[k + 1]? = some (.discover arc.target root) ∧ arc.target ≠ root := by
  have next : heard[k + 1]? = some heard[k + 1] := List.getElem?_eq_getElem more
  have expected : awaited (heard.take (k + 1)) = some arc.target := by
    rw [List.take_add_one, found]
    exact awaited_concat
  generalize heard[k + 1] = event at next
  cases orderly (k + 1) event next with
  | child inside fresh awaits other parent =>
    cases expected.symm.trans awaits
    exact ⟨_, next, other⟩
  | root inside fresh free closed => cases expected.symm.trans free
  | tree inner free fresh => cases expected.symm.trans free
  | back inner free opened => cases expected.symm.trans free
  | cross inner free left => cases expected.symm.trans free
  | finish inner free parent root => cases expected.symm.trans free
  | done closed free all explored => cases expected.symm.trans free

/-- The source of a tree arc is open as long as its target is. -/
theorem open_of_tree (orderly : Orderly graph heard) (tree : TreeArc heard p s) (opened : OpenAt heard s k) :
    OpenAt heard p k := by
  obtain ⟨arc, member, rfl⟩ := tree
  obtain ⟨n, found⟩ := List.mem_iff_getElem?.mp member
  obtain ⟨⟨i, less, discovered⟩, unfinished⟩ := opened
  have reported : ReportedAt heard p arc n := ⟨_, found, rfl⟩
  have later : n < i := by
    have early := (orderly.report_cases reported).resolve_right (by simp [found])
    have different : i ≠ n := by
      rintro rfl
      obtain ⟨root, discovered⟩ := discovered
      cases found.symm.trans discovered
    exact Nat.lt_of_le_of_ne (Nat.le_of_not_lt fun before => early.2 i before discovered) (Ne.symm different)
  have bound : i < heard.length := (List.getElem?_eq_some_iff.mp discovered.choose_spec).1
  obtain ⟨root, next, _⟩ := orderly.tree_discovers found (Nat.lt_of_le_of_lt later bound)
  have same : i = n + 1 := orderly.discovered_once discovered ⟨root, next⟩
  obtain ⟨⟨i', before, first⟩, open'⟩ := orderly.report_open reported
  refine ⟨⟨i', by omega, first⟩, fun j early finished => ?_⟩
  have notBefore : ¬ j < n := fun before => open' j before finished
  obtain ⟨parent, ending⟩ := finished
  have notHere : j ≠ n := fun here => by cases found.symm.trans (here ▸ ending)
  have notNext : j ≠ n + 1 := fun here => by cases next.symm.trans (here ▸ ending)
  obtain ⟨j', earlier, finished⟩ := orderly.nested first ⟨parent, ending⟩ ⟨root, next⟩ (by omega) (by omega)
  exact unfinished j' (Nat.lt_trans earlier early) finished

/-- An arc leads to an open state if and only if its target is an ancestor of its source. -/
theorem open_iff_ancestor (orderly : Orderly graph heard) (inner : (openStates (heard.take k)).head? = some source) :
    OpenAt heard t k ↔ ReflTransGen (TreeArc heard) t source := by
  obtain ⟨outer, opened⟩ : ∃ outer, openStates (heard.take k) = source :: outer := by
    cases opened : openStates (heard.take k) with
    | nil => rw [opened] at inner; cases inner
    | cons first outer => rw [opened] at inner; cases inner; exact ⟨outer, rfl⟩
  constructor
  · intro target
    have linked : (source :: outer).IsChain fun inner outer => TreeArc heard outer inner := by
      rw [← opened]
      refine (orderly.take k).linked.imp fun _ _ tree => ?_
      obtain ⟨arc, member, same⟩ := tree
      exact ⟨arc, List.mem_of_mem_take member, same⟩
    exact Search.reaches_of_isChain linked (opened ▸ mem_openStates_take.mpr target)
  · intro ancestor
    induction ancestor using ReflTransGen.head_induction_on with
    | refl => exact mem_openStates_take.mp (by simp [opened])
    | head tree _ ih => exact orderly.open_of_tree tree ih

end Orderly

/-- The events of a search that has come to its end. -/
structure Complete (graph : Graph W) (heard : List (Event W)) : Prop where
  orderly : Orderly graph heard
  ends : ∃ before, heard = before ++ [.done] ∧ .done ∉ before

namespace Complete

variable {graph : Graph W} {heard : List (Event W)} {s t p source : StateId} {arc : Arc W} {i j k : Nat}

/-- At the end no state is open, and every state and every arc has been met. -/
theorem settled (complete : Complete graph heard) : ∃ before, heard = before ++ [.done] ∧ openStates before = [] ∧
    (∀ s < graph.size, s ∈ discoveries before) ∧ ∀ s, reportsFrom s before = graph.arcsFrom s := by
  obtain ⟨before, rfl, _⟩ := complete.ends
  cases (orderly_concat.mp complete.orderly).2 with
  | done closed free all explored => exact ⟨before, rfl, closed, all, explored⟩

theorem discovered (complete : Complete graph heard) (inside : s < graph.size) : ∃ i, DiscoveredAt heard s i := by
  obtain ⟨before, rfl, _, all, _⟩ := complete.settled
  obtain ⟨root, member⟩ := mem_discoveries_iff.mp (all s inside)
  obtain ⟨i, found⟩ := List.mem_iff_getElem?.mp (List.mem_append_left [.done] member)
  exact ⟨i, root, found⟩

theorem discoveries_perm (complete : Complete graph heard) : (discoveries heard).Perm (List.range graph.size) := by
  refine (List.perm_ext_iff_of_nodup complete.orderly.distinct List.nodup_range).mpr fun s => ?_
  rw [mem_discoveries_iff, List.mem_range]
  constructor
  · intro given
    obtain ⟨root, member⟩ := given
    obtain ⟨i, found⟩ := List.mem_iff_getElem?.mp member
    exact (complete.orderly.fresh ⟨root, found⟩).1
  · intro inside
    obtain ⟨i, root, found⟩ := complete.discovered inside
    exact ⟨root, List.mem_of_getElem? found⟩

theorem finished (complete : Complete graph heard) (inside : s < graph.size) : ∃ j, FinishedAt heard s j := by
  obtain ⟨before, rfl, closed, all, _⟩ := complete.settled
  have finished : s ∈ finishes before := by
    by_contra unfinished
    have member : s ∈ openStates before := mem_openStates.mpr ⟨all s inside, unfinished⟩
    simp [closed] at member
  obtain ⟨parent, member⟩ := mem_finishes_iff.mp finished
  obtain ⟨j, found⟩ := List.mem_iff_getElem?.mp (List.mem_append_left [.done] member)
  exact ⟨j, parent, found⟩

theorem interval (complete : Complete graph heard) (inside : s < graph.size) :
    ∃ i j, i < j ∧ (∀ i', DiscoveredAt heard s i' ↔ i' = i) ∧ ∀ j', FinishedAt heard s j' ↔ j' = j := by
  obtain ⟨i, discovered⟩ := complete.discovered inside
  obtain ⟨j, finished⟩ := complete.finished inside
  refine ⟨i, j, complete.orderly.discovered_lt discovered finished, fun i' => ⟨fun other => ?_, ?_⟩,
    fun j' => ⟨fun other => ?_, ?_⟩⟩
  · exact complete.orderly.discovered_once other discovered
  · rintro rfl
    exact discovered
  · exact complete.orderly.finished_once other finished
  · rintro rfl
    exact finished

theorem nested {j' : Nat} (complete : Complete graph heard) (first : DiscoveredAt heard s i)
    (finished : FinishedAt heard s j) (second : DiscoveredAt heard t k) (ended : FinishedAt heard t j')
    (later : i < k) : j < k ∨ j' < j := by
  rcases Nat.lt_trichotomy j k with before | rfl | after
  · exact .inl before
  · obtain ⟨parent, ending⟩ := finished
    obtain ⟨root, beginning⟩ := second
    cases ending.symm.trans beginning
  · obtain ⟨j'', earlier, other⟩ := complete.orderly.nested first finished second later after
    exact .inr (complete.orderly.finished_once other ended ▸ earlier)

/-- After a tree arc its target is discovered at once, and not as a root. -/
theorem tree_discovers (complete : Complete graph heard) (found : heard[k]? = some (.treeArc source arc)) :
    ∃ root, heard[k + 1]? = some (.discover arc.target root) ∧ arc.target ≠ root := by
  apply complete.orderly.tree_discovers found
  obtain ⟨before, rfl, _⟩ := complete.ends
  rw [List.length_append, List.length_singleton]
  have bound := (List.getElem?_eq_some_iff.mp found).1
  rw [List.length_append, List.length_singleton] at bound
  -- The last event is the end of the search and no tree arc, so there is one after `k`.
  have notLast : k ≠ before.length := by
    rintro rfl
    rw [List.getElem?_concat_length] at found
    cases found
  omega

theorem discovered_by (complete : Complete graph heard) (tree : TreeArc heard p s) :
    ∃ n root, heard[n + 1]? = some (.discover s root) ∧ s ≠ root ∧ ∃ arc, heard[n]? = some (.treeArc p arc) := by
  obtain ⟨arc, member, rfl⟩ := tree
  obtain ⟨n, found⟩ := List.mem_iff_getElem?.mp member
  obtain ⟨root, next, other⟩ := complete.tree_discovers found
  exact ⟨n, root, next, other, arc, found⟩

theorem parent_unique (complete : Complete graph heard) (first : TreeArc heard p s) (second : TreeArc heard t s) :
    p = t := by
  obtain ⟨n, root, next, _, arc, found⟩ := complete.discovered_by first
  obtain ⟨n', root', next', _, arc', found'⟩ := complete.discovered_by second
  obtain rfl : n = n' := Nat.succ.inj (complete.orderly.discovered_once ⟨root, next⟩ ⟨root', next'⟩)
  cases found.symm.trans found'
  rfl

theorem not_root_of_tree (complete : Complete graph heard) (tree : TreeArc heard p s) : .discover s s ∉ heard := by
  intro member
  obtain ⟨n, root, next, other, _⟩ := complete.discovered_by tree
  obtain ⟨i, found⟩ := List.mem_iff_getElem?.mp member
  obtain rfl : i = n + 1 := complete.orderly.discovered_once ⟨s, found⟩ ⟨root, next⟩
  cases found.symm.trans next
  exact other rfl

theorem parent {parent : Option StateId} (complete : Complete graph heard) (member : .finish s parent ∈ heard) :
    (∀ p, parent = some p ↔ TreeArc heard p s) ∧ (parent = none ↔ .discover s s ∈ heard) := by
  obtain ⟨j, found⟩ := List.mem_iff_getElem?.mp member
  cases complete.orderly j _ found with
  | @finish s outer inner free tree root =>
    cases outer with
    | nil =>
      have rooted : .discover s s ∈ heard := List.mem_of_mem_take (root rfl)
      have alone {p : StateId} : ¬ TreeArc heard p s := fun tree => complete.not_root_of_tree tree rooted
      exact ⟨fun p => ⟨nofun, fun tree => absurd tree alone⟩, fun _ => rooted, fun _ => rfl⟩
    | cons q outer =>
      obtain ⟨arc, early, same⟩ := tree q rfl
      have tree : TreeArc heard q s := ⟨arc, List.mem_of_mem_take early, same⟩
      have unrooted : .discover s s ∉ heard := complete.not_root_of_tree tree
      refine ⟨fun p => ⟨fun equal => ?_, fun other => ?_⟩, nofun, fun rooted => absurd rooted unrooted⟩
      · cases equal
        exact tree
      · rw [complete.parent_unique other tree]
        rfl

theorem reports (complete : Complete graph heard) (s : StateId) : reportsFrom s heard = graph.arcsFrom s := by
  obtain ⟨before, rfl, _, _, explored⟩ := complete.settled
  rw [reportsFrom_of_silent rfl, explored]

theorem inside (complete : Complete graph heard) (reported : ReportedAt heard source arc k) :
    ∃ i j, DiscoveredAt heard source i ∧ FinishedAt heard source j ∧ i < k ∧ k < j := by
  obtain ⟨⟨i, less, discovered⟩, unfinished⟩ := complete.orderly.report_open reported
  obtain ⟨j, finished⟩ := complete.finished (complete.orderly.fresh discovered).1
  refine ⟨i, j, discovered, finished, less, Nat.lt_of_not_le fun early => ?_⟩
  rcases Nat.lt_or_eq_of_le early with before | rfl
  · exact unfinished j before finished
  · obtain ⟨event, found, about⟩ := reported
    obtain ⟨parent, ending⟩ := finished
    cases found.symm.trans ending
    cases about

/-- What is known of the target of an arc tells its kind, since the three cases exclude each other. -/
theorem kinds (complete : Complete graph heard) (reported : ReportedAt heard source arc k) :
    (heard[k]? = some (.treeArc source arc) ↔ ∀ i < k, ¬ DiscoveredAt heard arc.target i) ∧
    (heard[k]? = some (.backArc source arc) ↔ OpenAt heard arc.target k) ∧
    (heard[k]? = some (.crossArc source arc) ↔ ∃ j < k, FinishedAt heard arc.target j) := by
  have discovered_of_finished (finished : ∃ j < k, FinishedAt heard arc.target j) :
      ∃ i < k, DiscoveredAt heard arc.target i := by
    obtain ⟨j, less, finished⟩ := finished
    obtain ⟨i, earlier, discovered⟩ := (complete.orderly.finish_open finished).1
    exact ⟨i, Nat.lt_trans earlier less, discovered⟩
  rcases complete.orderly.report_cases reported with ⟨found, fresh⟩ | ⟨found, opened⟩ | ⟨found, finished⟩
  · have undiscovered : ¬ ∃ i < k, DiscoveredAt heard arc.target i := fun ⟨i, less, early⟩ => fresh i less early
    have unopened : ¬ OpenAt heard arc.target k := fun opened => undiscovered opened.1
    have unfinished := mt discovered_of_finished undiscovered
    simp only [found, unopened, unfinished, iff_false, true_iff]
    exact ⟨fresh, nofun, nofun⟩
  · have undiscovered : ¬ ∀ i < k, ¬ DiscoveredAt heard arc.target i := by simpa using opened.1
    have unfinished : ¬ ∃ j < k, FinishedAt heard arc.target j := by simpa using opened.2
    simp only [found, undiscovered, unfinished, iff_false, true_iff]
    exact ⟨nofun, opened, nofun⟩
  · have undiscovered : ¬ ∀ i < k, ¬ DiscoveredAt heard arc.target i := by simpa using discovered_of_finished finished
    have unopened : ¬ OpenAt heard arc.target k := by
      obtain ⟨j, less, finished⟩ := finished
      exact fun opened => opened.2 j less finished
    simp only [found, undiscovered, unopened, iff_false, true_iff]
    exact ⟨nofun, nofun, finished⟩

/-- Events that came in order and have come to their end are those of a depth-first search. -/
theorem depthFirst (complete : Complete graph heard) : DepthFirst graph heard := by
  have orderly := complete.orderly
  constructor
  case interval => exact fun s => complete.interval
  case state =>
    rintro s k (discovered | finished)
    · exact (orderly.fresh discovered).1
    · obtain ⟨i, _, discovered⟩ := (orderly.finish_open finished).1
      exact (orderly.fresh discovered).1
  case nested => exact fun s t i j i' j' => complete.nested
  case parent => exact fun s parent => complete.parent
  case reports => exact complete.reports
  case inside => exact fun source arc k => complete.inside
  case tree => exact fun source arc k reported => (complete.kinds reported).1
  case discovers =>
    intro source arc k found
    obtain ⟨root, next, _⟩ := complete.tree_discovers found
    exact ⟨root, next⟩
  case back => exact fun source arc k reported => (complete.kinds reported).2.1
  case ancestor =>
    intro source arc k reported
    exact (complete.kinds reported).2.1.trans (orderly.open_iff_ancestor (orderly.report_inner reported))
  case cross => exact fun source arc k reported => (complete.kinds reported).2.2
  case ends => exact complete.ends

end Complete

namespace Graph

variable {graph : Graph W} {visit : V → Event W → V × Bool}

/-- No visitor makes the search of a well-formed graph fail. -/
theorem search_ok (formed : graph.WellFormed) (visit : V → Event W → V × Bool) (visitor : V) :
    (graph.search visit visitor).2 = .ok () := by
  let kept (_ : V) (search : Search W) : Prop := search.Valid graph
  let ended (outcome : V × Except GraphError Unit) : Prop := outcome.2 = .ok ()
  suffices finished : ended (graph.search visit visitor) from finished
  apply @Search.run_satisfies _ _ _ _ kept
  case holds => exact Search.begin_valid graph
  case pass => exact fun _ _ _ valid moves => valid.step moves .pass
  case ask => exact fun _ _ _ _ valid moves => valid.step moves (.ask _)
  case tell => exact fun _ _ _ _ valid moves => valid.step moves .tell
  case fail => exact fun _ _ _ valid moves => (formed.not_lost (Departures.lost_of_fail valid moves)).elim
  case stop => exact fun _ _ _ _ => rfl

/-- A visitor that always agrees hears of the whole graph. -/
theorem events_complete (formed : graph.WellFormed)
    (agrees : ∀ visitor event, event.asks = true → (visit visitor event).2 = true) (visitor : V) :
    Complete graph (graph.events visit visitor) := by
  let kept (state : V × List (Event W)) (search : Search W) : Prop := Search.Keeps graph state.2 search
  let ended (outcome : (V × List (Event W)) × Except GraphError Unit) : Prop :=
    outcome.2 = .ok () → Complete graph outcome.1.2
  suffices recorded : ended (graph.search (recording visit) (visitor, [])) from recorded (search_ok formed _ _)
  apply @Search.run_satisfies _ _ _ _ kept
  case holds => exact Search.begin_keeps graph
  case pass => exact fun _ _ _ keeps moves => keeps.pass moves
  case ask =>
    intro state search event next keeps moves
    have answer : (recording visit state event).2 = true := agrees state.1 event moves.asks
    exact answer ▸ keeps.ask moves
  case tell => exact fun _ _ _ _ keeps moves => keeps.tell moves
  case fail => exact fun _ _ _ _ _ => nofun
  case stop =>
    intro state search keeps moves _
    exact ⟨keeps.orderly.concat (keeps.ends moves), state.2, rfl, keeps.recounts.unfinished⟩

/-- A visitor that always agrees is told of a depth-first search of the whole graph, where each state that a word
counts is discovered. -/
theorem agreeing_depthFirst (counted : graph.Counted) (formed : graph.WellFormed)
    (agrees : ∀ visitor event, event.asks = true → (visit visitor event).2 = true) (visitor : V) :
    graph.search visit visitor = (hearing visit visitor (graph.events visit visitor), .ok ()) ∧
      DepthFirst graph (graph.events visit visitor) ∧ (discoveries (graph.events visit visitor)).Perm graph.ids := by
  have complete := events_complete formed agrees visitor
  refine ⟨Prod.ext (search_hearing graph visit visitor) (search_ok formed visit visitor), complete.depthFirst, ?_⟩
  rw [counted.ids_eq]
  exact complete.discoveries_perm

/-- Two loops, a pair of arcs side by side and a state that is reached from nowhere. -/
def knot : Graph Unit where
  start := some 1
  states := #[{ arcs := #[⟨1, 1, (), 0⟩, ⟨2, 2, (), 2⟩] }, { arcs := #[⟨3, 3, (), 2⟩, ⟨3, 3, (), 2⟩] },
    { arcs := #[⟨4, 4, (), 1⟩] }, { final := some (), arcs := #[⟨5, 5, (), 0⟩] }]

theorem knot_wellFormed : knot.WellFormed := ⟨by rintro s ⟨⟩; decide, by decide⟩

theorem knot_depthFirst :
    knot.search (fun heard (_ : Event Unit) => (heard + 1, true)) 0 =
      (hearing (fun heard _ => (heard + 1, true)) 0 (knot.events (fun heard _ => (heard + 1, true)) 0), .ok ()) ∧
    DepthFirst knot (knot.events (fun heard _ => (heard + 1, true)) 0) ∧
    (discoveries (knot.events (fun heard _ => (heard + 1, true)) 0)).Perm [0, 1, 2, 3] :=
  agreeing_depthFirst (by decide) knot_wellFormed (fun _ _ _ => rfl) 0

end Graph

end Transducer
