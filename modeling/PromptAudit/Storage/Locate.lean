import PromptAudit.Storage.Disk

namespace PromptAudit.Disk

variable {d : Disk} {links left limit : Nat} {here there : Location} {name : Text} {rest : List Text}
  {item : Item} {trouble : Trouble} {p : Path}

/-- A name that leads to an entry of its folder, and not to the folder itself or up. -/
def IsProper (name : Text) : Prop := isDot name = false ∧ name ≠ up

theorem step_of_proper (proper : IsProper name) : step here name = here ++ [name] := by
  rw [step, proper.1, if_neg Bool.false_ne_true, if_neg proper.2]

theorem folder_of_entry (looked : d.entry here name = .ok item) : d.item? here = some .folder := by
  unfold entry at looked
  split at looked
  · cases looked
  · assumption
  · cases looked

/-- What is found under a proper name of a folder is the item there, unless the system refuses to
look. -/
theorem entry_of_proper (folder : d.item? here = some .folder) (proper : IsProper name) :
    d.entry here name = match d.refuses.lookUp here name with
      | some why => .error (.refused why)
      | none => match d.item? (here ++ [name]) with
        | none => .error .missing
        | some item => .ok item := by
  rw [entry, folder]
  dsimp only
  rw [proper.1, if_neg Bool.false_ne_true]
  cases d.refuses.lookUp here name with
  | some why => rfl
  | none => exact if_neg proper.2

theorem item?_of_entry (proper : IsProper name) (looked : d.entry here name = .ok item) :
    d.item? (here ++ [name]) = some item := by
  rw [entry_of_proper (folder_of_entry looked) proper] at looked
  split at looked
  · cases looked
  · split at looked
    · cases looked
    · cases looked
      assumption

/-- Neither a dot nor two of them are the name of a link. -/
theorem proper_of_entry_link {target : Text} (link : d.entry here name = .ok (.link target)) :
    IsProper name := by
  rw [entry, folder_of_entry link] at link
  dsimp only at link
  split at link
  · cases link
  · rename_i other
    refine ⟨by simpa using other, ?_⟩
    rintro rfl
    split at link
    · cases link
    · cases link

theorem locate_of_error (looked : d.entry here name = .error trouble) :
    d.locate links here (name :: rest) = .error trouble := by
  rw [locate, looked]

theorem locate_of_link {target : Text} (link : d.entry here name = .ok (.link target)) :
    d.locate (links + 1) here (name :: rest) =
      d.locate links (targetBase here target) (targetNames target ++ rest) := by
  rw [locate, link]

theorem locate_exhausted {target : Text} (link : d.entry here name = .ok (.link target)) :
    d.locate 0 here (name :: rest) = .error .tooManyLinks := by
  rw [locate, link]

theorem locate_of_plain (looked : d.entry here name = .ok item)
    (plain : ∀ target, item = .link target → False) :
    d.locate links here (name :: rest) = d.locate links (step here name) rest := by
  rw [locate, looked]
  cases item with
  | folder => rfl
  | file bytes => rfl
  | link target => exact (plain target rfl).elim

/-- A way to follow names one after the other is to follow the first of them and then the rest. -/
theorem locate_append (links : Nat) (here : Location) (front rest : List Text) :
    d.locate links here (front ++ rest) =
      (d.locate links here front).bind fun place => d.locate place.2 place.1 rest := by
  induction links, here, front using Disk.locate.induct d with
  | case1 links here => rw [locate, List.nil_append, Except.bind]
  | case2 links here name front trouble looked =>
    rw [List.cons_append, locate_of_error looked, locate_of_error looked, Except.bind]
  | case3 here name front target link =>
    rw [List.cons_append, locate_exhausted link, locate_exhausted link, Except.bind]
  | case4 here name front target link left ih =>
    rw [List.cons_append, Nat.succ_eq_add_one, locate_of_link link, locate_of_link link, ← ih,
      List.append_assoc]
  | case5 links here name front item plain looked ih =>
    rw [List.cons_append, locate_of_plain looked plain, locate_of_plain looked plain, ih]

/-- What is left of the links is no more than there was. -/
theorem left_le_of_locate {names : List Text}
    (located : d.locate links here names = .ok (there, left)) : left ≤ links := by
  induction links, here, names using Disk.locate.induct d with
  | case1 links here =>
    rw [locate] at located
    cases located
    exact Nat.le_refl _
  | case2 links here name rest trouble looked =>
    rw [locate_of_error looked] at located
    cases located
  | case3 here name rest target link =>
    rw [locate_exhausted link] at located
    cases located
  | case4 here name rest target link fewer ih =>
    rw [Nat.succ_eq_add_one, locate_of_link link] at located
    exact Nat.le_succ_of_le (ih located)
  | case5 links here name rest item plain looked ih =>
    rw [locate_of_plain looked plain] at located
    exact ih located

/-- One name leads as it is written, or it is the name of a link, which is taken off those that are
left. -/
theorem step_or_link_of_locate (located : d.locate links here [name] = .ok (there, left)) :
    (there = step here name ∧ left = links ∧
      ∃ item, d.entry here name = .ok item ∧ ∀ target, item = .link target → False) ∨
    (left < links ∧ ∃ target, d.entry here name = .ok (.link target)) := by
  cases looked : d.entry here name with
  | error trouble =>
    rw [locate_of_error looked] at located
    cases located
  | ok item =>
    by_cases link : ∃ target, item = .link target
    · obtain ⟨target, rfl⟩ := link
      refine .inr ⟨?_, target, rfl⟩
      cases links with
      | zero =>
        rw [locate_exhausted looked] at located
        cases located
      | succ fewer =>
        rw [locate_of_link looked] at located
        exact Nat.lt_succ_of_le (left_le_of_locate located)
    · have plain : ∀ target, item = .link target → False := fun target same => link ⟨target, same⟩
      rw [locate_of_plain looked plain, locate] at located
      cases located
      exact .inl ⟨rfl, rfl, item, rfl, plain⟩

theorem le_foldr_max {n : Nat} {l : List Nat} (h : n ∈ l) : n ≤ l.foldr max 0 := by
  induction l with
  | nil => simp at h
  | cons a r ih =>
    simp only [List.foldr_cons]
    rcases List.mem_cons.1 h with rfl | hr
    · omega
    · have := ih hr
      omega

/-- No entry lies below a folder that is as deep as the deepest entry. -/
theorem length_lt_depth (holds : d.item? (here ++ [name]) = some item) : here.length < d.depth := by
  rw [item?, if_neg (by simp)] at holds
  obtain ⟨before, after, split, -⟩ := List.lookup_eq_some_iff.mp holds
  have listed : (here ++ [name]).length ∈ d.entries.map (·.1.length) := by
    rw [split]
    simp
  have below := le_foldr_max listed
  rw [List.length_append, List.length_singleton] at below
  exact below

/-- A path that can be followed to a folder over so many links. -/
def OpensWithin (d : Disk) (limit : Nat) (p : Path) : Prop :=
  ∃ here left, d.locate limit (d.base p) p.names = .ok (here, left) ∧ d.item? here = some .folder

/-- How far a way may still go down from a path: the links that are left count more than the folders
between it and the deepest entry. -/
def reserve (d : Disk) (limit : Nat) (p : Path) : Nat :=
  match d.locate limit (d.base p) p.names with
  | .ok (here, left) => left * (d.depth + 1) + (d.depth - here.length)
  | .error _ => 0

theorem locate_child (limit : Nat) (p : Path) (name : Text) :
    d.locate limit (d.base (p.child name)) (p.child name).names =
      (d.locate limit (d.base p) p.names).bind fun place => d.locate place.2 place.1 [name] :=
  locate_append _ _ _ _

/-- A step into a folder either follows a link, and fewer are left, or goes one name down towards the
deepest entry. -/
theorem reserve_child_lt (proper : IsProper name) (opens : d.OpensWithin limit (p.child name)) :
    d.reserve limit (p.child name) < d.reserve limit p := by
  obtain ⟨there, left, arrived, -⟩ := opens
  have split := arrived
  rw [locate_child] at split
  cases start : d.locate limit (d.base p) p.names with
  | error trouble =>
    rw [start] at split
    cases split
  | ok place =>
    obtain ⟨here, links⟩ := place
    rw [start] at split
    have located : d.locate links here [name] = .ok (there, left) := split
    rw [reserve, reserve, arrived, start]
    dsimp only
    rcases step_or_link_of_locate located with ⟨rfl, rfl, item, looked, -⟩ | ⟨fewer, -⟩
    · have short := length_lt_depth (item?_of_entry proper looked)
      rw [step_of_proper proper, List.length_append, List.length_singleton]
      omega
    · have spent : (left + 1) * (d.depth + 1) ≤ links * (d.depth + 1) :=
        Nat.mul_le_mul_right _ fewer
      rw [Nat.add_mul, Nat.one_mul] at spent
      omega

theorem find_eq_ok_iff {place : Location × Nat} :
    d.find p = .ok place ↔
      d.barred p = none ∧ d.locate linkLimit (d.base p) p.names = .ok place := by
  unfold find
  cases d.barred p with
  | some trouble => simp
  | none => simp

theorem follow_eq_ok_iff :
    d.follow p = .ok item ↔
      ∃ here links, d.find p = .ok (here, links) ∧ d.item? here = some item := by
  unfold follow
  cases d.find p with
  | error trouble => simp
  | ok place =>
    obtain ⟨here, links⟩ := place
    dsimp only
    cases holds : d.item? here <;> simp [holds]

theorem tested_eq_some_iff {looked : Except Trouble Item} :
    tested looked = .ok (some item) ↔ looked = .ok item := by
  unfold tested
  split <;> simp

theorem status_eq_some_iff :
    d.status p = .ok (some item) ↔
      ∃ here links, d.find p = .ok (here, links) ∧ d.item? here = some item :=
  tested_eq_some_iff.trans follow_eq_ok_iff

theorem opensWithin_of_status (folder : d.status p = .ok (some .folder)) :
    d.OpensWithin linkLimit p := by
  obtain ⟨here, left, found, holds⟩ := status_eq_some_iff.mp folder
  exact ⟨here, left, (find_eq_ok_iff.mp found).2, holds⟩

end PromptAudit.Disk
