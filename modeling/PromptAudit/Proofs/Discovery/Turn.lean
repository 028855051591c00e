import Mathlib.Data.List.Basic
import PromptAudit.Discovery
import PromptAudit.Proofs.Storage.Locate

namespace PromptAudit.Discovery

/-- A name that a folder lists. -/
def Lists (d : Disk) (p : Path) (name : Text) : Prop := ∃ names, d.listing p = .ok names ∧ name ∈ names

/-- If a path is a link, its place is known and lies within the root. -/
def Inside (w : Rules d) (p : Path) : Prop :=
  ∀ target, d.ownStatus p = .ok (some (.link target)) →
    ∃ place, d.resolve p = .ok place ∧ w.bound <+: place

/-- A file that a walk is after, by its names below the root. -/
structure Wanted (w : Rules d) (below : List Text) : Prop where
  source : (w.path below).isSource = true
  heeded : w.ignored below = false
  text : ∃ bytes, d.read (w.path below) = .ok bytes ∧ 0 ∉ bytes.take 8192

/-- What stops a walk at a path: the system refuses to tell what stands there, or a link there has no
place, or the system refuses to go where a link within the root leads. -/
inductive Faults (w : Rules d) (p : Path) : Stop → Prop
  | untold {why : Refusal} (own : d.ownStatus p = .error why) : Faults w p (.refused p why)
  | unsettled {why : Unsettled} {target : Text}
      (link : d.ownStatus p = .ok (some (.link target))) (unsettled : d.resolve p = .error why) :
      Faults w p (.unsettled why)
  | unreached {why : Refusal} {own : Option Item} (told : d.ownStatus p = .ok own)
      (inside : Inside w p) (unreached : d.status p = .error why) : Faults w p (.refused p why)

variable {d : Disk} {w : Rules d} {below : List Text} {name : Text} {p : Path}

theorem not_isBinary_iff :
    d.isBinary p = false ↔ ∃ bytes, d.read p = .ok bytes ∧ 0 ∉ bytes.take 8192 := by
  unfold Disk.isBinary
  cases d.read p with
  | error trouble => simp
  | ok bytes => simp

theorem status_of_read {bytes : Bytes} (read : d.read p = .ok bytes) :
    d.status p = .ok (some (.file bytes)) := by
  obtain ⟨here, links, found, holds, -⟩ := Disk.read_eq_ok_iff.mp read
  exact Disk.status_eq_some_iff.mpr ⟨here, links, found, holds⟩

theorem arrive_eq_source_iff :
    arrive w below name = .note (.source p) ↔
      p = w.path (below ++ [name]) ∧ Wanted w (below ++ [name]) := by
  unfold arrive
  dsimp only
  cases leads : d.status (w.path (below ++ [name])) with
  | error why =>
    refine iff_of_false (by simp) ?_
    intro h
    obtain ⟨-, -, -, bytes, read, -⟩ := h
    cases leads.symm.trans (status_of_read read)
  | ok item =>
    have unread (other : ∀ bytes, item ≠ some (.file bytes)) : ¬ Wanted w (below ++ [name]) := by
      intro h
      obtain ⟨-, -, bytes, read, -⟩ := h
      exact other bytes (Except.ok.inj (leads.symm.trans (status_of_read read)))
    match item with
    | none => exact iff_of_false (by simp) fun wanted => unread (by simp) wanted.2
    | some .folder =>
      refine iff_of_false ?_ fun wanted => unread (by simp) wanted.2
      dsimp only
      split <;> simp
    | some (.link target) => exact iff_of_false (by simp) fun wanted => unread (by simp) wanted.2
    | some (.file bytes) =>
      dsimp only
      split
      · rename_i passed
        refine iff_of_false (by simp) fun wanted => ?_
        rw [wanted.2.source, wanted.2.heeded] at passed
        cases passed
      · rename_i taken
        obtain ⟨source, heeded⟩ : (w.path (below ++ [name])).isSource = true ∧
            w.ignored (below ++ [name]) = false := by simpa using taken
        split
        · rename_i binary
          refine iff_of_false (by simp) fun wanted => ?_
          rw [not_isBinary_iff.mpr wanted.2.text] at binary
          cases binary
        · rename_i text
          rw [Turn.note.injEq, Sighting.source.injEq, eq_comm]
          refine (and_iff_left ⟨source, heeded, not_isBinary_iff.mp ?_⟩).symm
          exact Bool.eq_false_iff.mpr text

theorem arrive_eq_stop_iff {stop : Stop} :
    arrive w below name = .stop stop ↔
      ∃ why, d.status (w.path (below ++ [name])) = .error why ∧
        stop = .refused (w.path (below ++ [name])) why := by
  unfold arrive
  dsimp only
  split
  · rename_i why leads
    simp [leads, eq_comm]
  · split <;> simp_all
  · split
    · simp_all
    · split <;> simp_all
  · simp_all

/-- A name that is not the name of a link out of the root leads where the item behind it leads. -/
theorem turn_of_inside {own : Option Item} (inside : Inside w (w.path (below ++ [name])))
    (told : d.ownStatus (w.path (below ++ [name])) = .ok own) :
    turn w below name = arrive w below name := by
  unfold turn
  dsimp only
  rw [told]
  match own with
  | none => rfl
  | some .folder => rfl
  | some (.file bytes) => rfl
  | some (.link target) =>
    obtain ⟨place, resolves, within⟩ := inside target told
    dsimp only
    rw [resolves]
    exact if_pos (List.isPrefixOf_iff_prefix.mpr within)

theorem inside_of_plain {own : Option Item} (told : d.ownStatus p = .ok own)
    (plain : ∀ target, own ≠ some (.link target)) : Inside w p := fun target link =>
  (plain target (Except.ok.inj (told.symm.trans link))).elim

/-- A turn is what the item behind the name gives, unless a link is in the way. -/
theorem turn_cases (w : Rules d) (below : List Text) (name : Text) :
    (∃ why, d.ownStatus (w.path (below ++ [name])) = .error why ∧
      turn w below name = .stop (.refused (w.path (below ++ [name])) why)) ∨
    (∃ target why, d.ownStatus (w.path (below ++ [name])) = .ok (some (.link target)) ∧
      d.resolve (w.path (below ++ [name])) = .error why ∧
      turn w below name = .stop (.unsettled why)) ∨
    (¬ Inside w (w.path (below ++ [name])) ∧
      turn w below name = .note (.outside (w.path (below ++ [name])))) ∨
    (Inside w (w.path (below ++ [name])) ∧
      (∃ own, d.ownStatus (w.path (below ++ [name])) = .ok own) ∧
      turn w below name = arrive w below name) := by
  cases told : d.ownStatus (w.path (below ++ [name])) with
  | error why => exact .inl ⟨why, rfl, by rw [turn, told]⟩
  | ok own =>
    by_cases link : ∃ target, own = some (.link target)
    · obtain ⟨target, rfl⟩ := link
      cases resolves : d.resolve (w.path (below ++ [name])) with
      | error why =>
        exact .inr (.inl ⟨target, why, rfl, rfl, by rw [turn, told, resolves]⟩)
      | ok place =>
        by_cases within : w.bound <+: place
        · have inside : Inside w (w.path (below ++ [name])) := fun _ _ => ⟨place, resolves, within⟩
          exact .inr (.inr (.inr ⟨inside, ⟨_, rfl⟩, turn_of_inside inside told⟩))
        · refine .inr (.inr (.inl ⟨fun inside => ?_, ?_⟩))
          · obtain ⟨other, again, inner⟩ := inside target told
            exact within (Except.ok.inj (resolves.symm.trans again) ▸ inner)
          · rw [turn, told, resolves]
            exact if_neg (mt List.isPrefixOf_iff_prefix.mp within)
    · have inside : Inside w (w.path (below ++ [name])) :=
        inside_of_plain told fun target same => link ⟨target, same⟩
      exact .inr (.inr (.inr ⟨inside, ⟨own, rfl⟩, turn_of_inside inside told⟩))

/-- A walk goes on from a name, or notes something else than a way out, only as what it arrives at
tells it to. -/
theorem arrive_of_turn {outcome : Turn} (turns : turn w below name = outcome)
    (goes : ∀ stop, outcome ≠ .stop stop) (within : ∀ p, outcome ≠ .note (.outside p)) :
    Inside w (w.path (below ++ [name])) ∧ arrive w below name = outcome := by
  rcases turn_cases w below name with
    ⟨why, -, stops⟩ | ⟨target, why, -, -, stops⟩ | ⟨-, outside⟩ | ⟨inside, -, same⟩
  · exact (goes _ (turns.symm.trans stops)).elim
  · exact (goes _ (turns.symm.trans stops)).elim
  · exact (within _ (turns.symm.trans outside)).elim
  · exact ⟨inside, same.symm.trans turns⟩

theorem turn_eq_enter_iff :
    turn w below name = .enter ↔ Inside w (w.path (below ++ [name])) ∧
      d.status (w.path (below ++ [name])) = .ok (some .folder) ∧ w.enters below name = true := by
  rw [← arrive_eq_enter_iff]
  refine ⟨fun enters => arrive_of_turn enters (by simp) (by simp), fun h => ?_⟩
  obtain ⟨inside, arrives⟩ := h
  obtain ⟨own, told⟩ := Disk.ownStatus_of_status (arrive_eq_enter_iff.mp arrives).1
  rw [turn_of_inside inside told, arrives]

theorem turn_eq_source_iff :
    turn w below name = .note (.source p) ↔ p = w.path (below ++ [name]) ∧
      Inside w (w.path (below ++ [name])) ∧ Wanted w (below ++ [name]) := by
  rw [and_left_comm, ← arrive_eq_source_iff]
  refine ⟨fun notes => arrive_of_turn notes (by simp) (by simp), fun h => ?_⟩
  obtain ⟨inside, arrives⟩ := h
  obtain ⟨bytes, read, -⟩ := (arrive_eq_source_iff.mp arrives).2.text
  obtain ⟨own, told⟩ := Disk.ownStatus_of_status (status_of_read read)
  rw [turn_of_inside inside told, arrives]

theorem turn_eq_stop_iff {stop : Stop} :
    turn w below name = .stop stop ↔ Faults w (w.path (below ++ [name])) stop := by
  constructor
  · intro stops
    rcases turn_cases w below name with
      ⟨why, own, same⟩ | ⟨target, why, link, unsettled, same⟩ | ⟨-, outside⟩ | ⟨inside, told, same⟩
    · cases stops.symm.trans same
      exact .untold own
    · cases stops.symm.trans same
      exact .unsettled link unsettled
    · cases stops.symm.trans outside
    · obtain ⟨own, told⟩ := told
      obtain ⟨why, unreached, rfl⟩ := arrive_eq_stop_iff.mp (same.symm.trans stops)
      exact .unreached told inside unreached
  · intro faults
    generalize here : w.path (below ++ [name]) = path at faults
    cases faults with
    | untold own =>
      rw [turn, here, own]
    | unsettled link unsettled =>
      rw [turn, here, link, unsettled]
    | @unreached why own told inside unreached =>
      subst here
      rw [turn_of_inside inside told]
      exact arrive_eq_stop_iff.mpr ⟨why, unreached, rfl⟩

end PromptAudit.Discovery
