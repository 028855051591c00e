import Mathlib
import PromptAudit.Proofs.Discovery.Turn
import PromptAudit.Proofs.List.Runs
import PromptAudit.Proofs.Storage.Entries

namespace PromptAudit.Discovery

/-- A folder that is entered from the one above it. -/
def Opens (w : Rules d) (below deeper : List Text) : Prop :=
  ∃ name, deeper = below ++ [name] ∧ Lists d (w.path below) name ∧ turn w below name = .enter

/-- A folder that is entered from another one, through any number of folders between them. -/
def Descends (w : Rules d) : List Text → List Text → Prop :=
  Relation.ReflTransGen (Opens w)

/-- What a turn gives at once: something to note, or what stops the walk. -/
def Turn.event? : Turn → Option (Except Stop Sighting)
  | .note s => some (.ok s)
  | .stop why => some (.error why)
  | _ => none

/-- What a folder gives at once, under the names that lead there. -/
inductive Meets (w : Rules d) (below : List Text) :
    List Text → Except Stop Sighting → Prop
  | unlisted {trouble : Trouble} (unlisted : d.listing (w.path below) = .error trouble) :
      Meets w below below (.ok (.unlisted (w.path below) trouble))
  | turn {name : Text} {event : Except Stop Sighting} (listed : Lists d (w.path below) name)
      (gives : (turn w below name).event? = some event) :
      Meets w below (below ++ [name]) event

/-- All that lies on the way of a walk, were it not stopped, under the names that lead there. -/
def course (w : Rules d) (below : List Text) : List (List Text × Except Stop Sighting) :=
  match d.listing (w.path below) with
  | .error trouble => [(below, .ok (.unlisted (w.path below) trouble))]
  | .ok names => names.flatMap fun name =>
      match _turns : turn w below name with
      | .enter => course w (below ++ [name])
      | other => (other.event?.map (below ++ [name], ·)).toList
termination_by d.reserve Disk.linkLimit (w.path below)
decreasing_by exact reserve_lt_of_turn _turns

/-- The paths of the sources among some sightings. -/
def sources (sightings : List Sighting) : List Path := sightings.filterMap Sighting.source?

variable {d : Disk} {w : Rules d} {below deeper tag : List Text} {name : Text} {p : Path}
  {event : Except Stop Sighting}

/-- What lies on the way of a walk under one name of a folder. -/
def branch (w : Rules d) (below : List Text) (name : Text) :
    List (List Text × Except Stop Sighting) :=
  match turn w below name with
  | .enter => course w (below ++ [name])
  | other => (other.event?.map (below ++ [name], ·)).toList

theorem course_of_listing {names : List Text} (listed : d.listing (w.path below) = .ok names) :
    course w below = names.flatMap (branch w below) := by
  rw [course, listed]
  refine List.flatMap_congr fun name _ => ?_
  unfold branch
  cases turn w below name <;> rfl

theorem branch_of_enter (enters : turn w below name = .enter) :
    branch w below name = course w (below ++ [name]) := by
  rw [branch, enters]

theorem mem_branch_iff :
    (tag, event) ∈ branch w below name ↔
      (turn w below name = .enter ∧ (tag, event) ∈ course w (below ++ [name])) ∨
      (tag = below ++ [name] ∧ (turn w below name).event? = some event) := by
  unfold branch
  cases turn w below name with
  | pass => simp [Turn.event?]
  | note s => simp [Turn.event?, eq_comm]
  | enter => simp [Turn.event?]
  | stop why => simp [Turn.event?, eq_comm]

/-- A walk goes its course until it is stopped. -/
theorem walk_eq (w : Rules d) (below : List Text) :
    walk w below = (course w below).mapM Prod.snd := by
  induction below using walk.induct w with
  | case1 below trouble unlisted =>
    rw [walk, course, unlisted]
    rfl
  | case2 below names listed ih =>
    rw [walk, listed, course_of_listing listed]
    refine mapM_flatMap (fun name => ?_) names
    unfold branch
    cases turns : turn w below name with
    | pass => rfl
    | note s => rfl
    | enter => exact ih name turns
    | stop why => rfl

/-- On the way of a walk lies what the folders give that it descends to. -/
theorem mem_course_iff :
    (tag, event) ∈ course w below ↔
      ∃ deeper, Descends w below deeper ∧ Meets w deeper tag event := by
  induction below using walk.induct w with
  | case1 below trouble unlisted =>
    have closed {name : Text} : ¬ Lists d (w.path below) name := by
      intro h
      obtain ⟨names, listed, -⟩ := h
      cases unlisted.symm.trans listed
    rw [course, unlisted]
    constructor
    · intro listed
      obtain ⟨rfl, rfl⟩ := Prod.mk.inj (List.mem_singleton.mp listed)
      exact ⟨_, .refl, .unlisted unlisted⟩
    · intro h
      obtain ⟨deeper, descends, meets⟩ := h
      rcases Relation.ReflTransGen.cases_head descends with rfl | ⟨first, ⟨name, -, listed, -⟩, -⟩
      · cases meets with
        | unlisted again =>
          cases unlisted.symm.trans again
          exact List.mem_singleton_self _
        | turn listed _ => exact (closed listed).elim
      · exact (closed listed).elim
  | case2 below names listed ih =>
    have open_iff {name : Text} : Lists d (w.path below) name ↔ name ∈ names := by
      simp [Lists, listed]
    rw [course_of_listing listed, List.mem_flatMap]
    simp only [mem_branch_iff]
    constructor
    · intro h
      obtain ⟨name, member, ⟨enters, further⟩ | ⟨rfl, gives⟩⟩ := h
      · obtain ⟨deeper, descends, meets⟩ := (ih name enters).mp further
        exact ⟨deeper, .head ⟨name, rfl, open_iff.mpr member, enters⟩ descends, meets⟩
      · exact ⟨below, .refl, .turn (open_iff.mpr member) gives⟩
    · intro h
      obtain ⟨deeper, descends, meets⟩ := h
      rcases Relation.ReflTransGen.cases_head descends with
        rfl | ⟨first, ⟨name, rfl, member, enters⟩, onward⟩
      · cases meets with
        | unlisted unlisted => cases listed.symm.trans unlisted
        | turn member gives => exact ⟨_, open_iff.mp member, .inr ⟨rfl, gives⟩⟩
      · exact ⟨name, open_iff.mp member, .inl ⟨enters, (ih name enters).mpr ⟨deeper, onward, meets⟩⟩⟩

theorem Descends.exists_append (descends : Descends w below deeper) :
    ∃ further, deeper = below ++ further := by
  induction descends with
  | refl => exact ⟨[], (List.append_nil _).symm⟩
  | tail _ opens ih =>
    obtain ⟨further, rfl⟩ := ih
    obtain ⟨name, rfl, -, -⟩ := opens
    exact ⟨further ++ [name], List.append_assoc _ _ _⟩

theorem exists_append_of_mem_course (lies : (tag, event) ∈ course w below) :
    ∃ further, tag = below ++ further := by
  obtain ⟨deeper, descends, meets⟩ := mem_course_iff.mp lies
  obtain ⟨further, rfl⟩ := descends.exists_append
  cases meets with
  | unlisted _ => exact ⟨further, rfl⟩
  | turn _ _ => exact ⟨further ++ [_], List.append_assoc _ _ _⟩

theorem exists_append_of_mem_branch (lies : (tag, event) ∈ branch w below name) :
    ∃ further, tag = below ++ name :: further := by
  rcases mem_branch_iff.mp lies with ⟨-, lies⟩ | ⟨rfl, -⟩
  · obtain ⟨further, rfl⟩ := exists_append_of_mem_course lies
    exact ⟨further, List.append_assoc _ _ _⟩
  · exact ⟨[], rfl⟩

/-- What lies on the way of a walk is met in the order of the names that lead there, where the
names of one folder first differ. -/
theorem pairwise_course (distinct : d.Distinct) (below : List Text) :
    (course w below).Pairwise fun first second => List.Lex Text.Before first.1 second.1 := by
  induction below using walk.induct w with
  | case1 below trouble unlisted =>
    rw [course, unlisted]
    exact List.pairwise_singleton _ _
  | case2 below names listed ih =>
    obtain ⟨here, links, -, -, -, rfl⟩ := Disk.listing_eq_ok_iff.mp listed
    rw [course_of_listing listed]
    refine List.pairwise_flatMap.mpr ⟨fun name _ => ?_, ?_⟩
    · unfold branch
      cases turns : turn w below name with
      | pass => exact List.Pairwise.nil
      | note s => exact List.pairwise_singleton _ _
      | enter => exact ih name turns
      | stop why => exact List.pairwise_singleton _ _
    · refine (Disk.names_pairwise distinct here).imp fun {first second} before p listed q later => ?_
      obtain ⟨front, same⟩ := exists_append_of_mem_branch listed
      obtain ⟨back, again⟩ := exists_append_of_mem_branch later
      rw [same, again]
      have differ : List.Lex Text.Before (first :: front) (second :: back) := .rel before
      exact differ.append_left _ below

/-- A walk is stopped by the first on its way that stops it. -/
theorem walk_eq_error_iff {stop : Stop} :
    walk w below = .error stop ↔ ∃ front met back, course w below = front ++ met :: back ∧
      met.2 = .error stop ∧ ∀ first ∈ front, ¬ ∃ another, first.2 = .error another := by
  have goes {event : Except Stop Sighting} :
      (∃ s, event = .ok s) ↔ ¬ ∃ another, event = .error another := by
    cases event <;> simp
  rw [walk_eq, mapM_eq_error_iff]
  simp only [goes]

theorem walk_returns_iff :
    (∃ seen, walk w below = .ok seen) ↔ ∀ tag stop, (tag, .error stop) ∉ course w below := by
  constructor
  · intro h tag stop lies
    obtain ⟨seen, returned⟩ := h
    rw [walk_eq, mapM_eq_ok_iff] at returned
    have listed : .error stop ∈ seen.map Except.ok := returned ▸ List.mem_map_of_mem lies
    obtain ⟨s, -, same⟩ := List.mem_map.mp listed
    cases same
  · intro clear
    cases run : walk w below with
    | ok seen => exact ⟨seen, rfl⟩
    | error stop =>
      obtain ⟨front, ⟨tag, event⟩, back, split, rfl, -⟩ := walk_eq_error_iff.mp run
      exact (clear tag stop (split ▸ List.mem_append_cons_self)).elim

section Returned

variable {seen : List Sighting}

theorem sources_eq (returned : walk w below = .ok seen) :
    sources seen = (course w below).filterMap fun met => met.2.toOption.bind Sighting.source? := by
  rw [walk_eq, mapM_eq_ok_iff] at returned
  calc sources seen
      = (seen.map Except.ok).filterMap
          fun event : Except Stop Sighting => event.toOption.bind Sighting.source? := by
        rw [List.filterMap_map]
        rfl
    _ = ((course w below).map Prod.snd).filterMap
          fun event => event.toOption.bind Sighting.source? := by rw [returned]
    _ = (course w below).filterMap fun met => met.2.toOption.bind Sighting.source? :=
        List.filterMap_map

theorem source_of_event (source : p ∈ event.toOption.bind Sighting.source?) :
    event = .ok (.source p) := by
  cases event with
  | error stop => cases source
  | ok s =>
    cases s with
    | source path =>
      cases source
      rfl
    | _ => cases source

theorem mem_sources_iff (returned : walk w below = .ok seen) :
    p ∈ sources seen ↔ ∃ tag, (tag, .ok (.source p)) ∈ course w below := by
  rw [sources_eq returned, List.mem_filterMap]
  constructor
  · intro h
    obtain ⟨⟨tag, event⟩, lies, source⟩ := h
    have same : event = .ok (.source p) := source_of_event source
    exact ⟨tag, same ▸ lies⟩
  · intro h
    obtain ⟨tag, lies⟩ := h
    exact ⟨_, lies, rfl⟩

/-- A source is met under the names that lead to it. -/
theorem eq_path_of_source (lies : (tag, .ok (.source p)) ∈ course w below) : p = w.path tag := by
  obtain ⟨deeper, -, meets⟩ := mem_course_iff.mp lies
  cases meets with
  | @turn name _ listed gives =>
    have notes : turn w deeper name = .note (.source p) := by
      cases turns : turn w deeper name <;> rw [turns] at gives <;> cases gives
      rfl
    exact (turn_eq_source_iff.mp notes).1

/-- One path stands before another where they first differ by a smaller name, or where it ends
first. -/
def PathBefore (p q : Path) : Prop := List.Lex Text.Before p.names q.names

/-- A walk comes across sources in the order of their paths, and across each of them once. -/
theorem pairwise_sources (distinct : d.Distinct) (returned : walk w below = .ok seen) :
    (sources seen).Pairwise PathBefore := by
  rw [sources_eq returned, List.pairwise_filterMap]
  refine (pairwise_course distinct below).imp_of_mem ?_
  rintro ⟨tag, event⟩ ⟨later, second⟩ here there before p first q last
  have same : event = .ok (.source p) := source_of_event first
  have again : second = .ok (.source q) := source_of_event last
  subst same again
  rw [eq_path_of_source here, eq_path_of_source there]
  exact before.append_left _ w.root.names

end Returned

end PromptAudit.Discovery
