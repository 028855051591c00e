import PromptAudit.Proofs.Storage.Locate

namespace PromptAudit.Disk

variable {d : Disk} {links left : Nat} {here there : Location} {name : Text} {rest names : List Text}
  {item : Item} {p : Path}

/-- A path without links or dots that can be followed to a place. -/
structure Reaches (d : Disk) (p : Path) (here : Location) : Prop where
  located : d.locate 0 (d.base p) p.names = .ok (here, 0)
  undotted : ∀ name ∈ p.names, isDot name = false

section Reaches

theorem foldl_of_locate (located : d.locate 0 here names = .ok (there, left)) :
    there = names.foldl step here := by
  induction names generalizing here with
  | nil =>
    rw [locate] at located
    cases located
    rfl
  | cons name rest ih =>
    cases looked : d.entry here name with
    | error trouble =>
      rw [locate_of_error looked] at located
      cases located
    | ok item =>
      by_cases link : ∃ target, item = .link target
      · obtain ⟨target, rfl⟩ := link
        rw [locate_exhausted looked] at located
        cases located
      · rw [locate_of_plain looked fun target same => link ⟨target, same⟩] at located
        exact ih located

theorem Reaches.location (reaches : d.Reaches p here) : d.location p = here :=
  (foldl_of_locate reaches.located).symm

theorem Reaches.locate (reaches : d.Reaches p here) (links : Nat) :
    d.locate links (d.base p) p.names = .ok (here, links) := by
  have located := locate_spare reaches.located links
  rwa [Nat.sub_self, Nat.zero_add] at located

theorem Reaches.child (reaches : d.Reaches p here) (undotted : isDot name = false)
    (looked : d.entry here name = .ok item) (plain : ∀ target, item = .link target → False) :
    d.Reaches (p.child name) (step here name) := by
  refine ⟨?_, ?_⟩
  · rw [locate_child, reaches.located]
    exact (locate_of_plain looked plain).trans (by rw [Disk.locate])
  · intro other listed
    rcases List.mem_append.mp listed with before | last
    · exact reaches.undotted other before
    · rwa [List.mem_singleton.mp last]

theorem folder_of_entry_up (looked : d.entry here up = .ok item) : item = .folder := by
  have other : isDot up = false := rfl
  rw [entry, folder_of_entry looked] at looked
  dsimp only at looked
  rw [other, if_neg Bool.false_ne_true] at looked
  split at looked
  · cases looked
  · rw [if_pos rfl] at looked
    cases looked
    rfl

theorem up_child_up (p : Path) : (p.child up).up = (p.child up).child up := by
  have last : (p.child up).names.getLast? = some up := List.getLast?_concat
  rw [Path.up, last]
  exact if_pos rfl

theorem up_child (p : Path) (other : name ≠ up) : (p.child name).up = p := by
  have last : (p.child name).names.getLast? = some name := List.getLast?_concat
  rw [Path.up, last]
  refine (if_neg other).trans ?_
  rw [Path.child, List.dropLast_concat]

theorem Reaches.of_child (reaches : d.Reaches (p.child name) there) :
    ∃ here, d.Reaches p here ∧ isDot name = false ∧ there = step here name := by
  have undotted := reaches.undotted name List.mem_concat_self
  have located := reaches.located
  rw [locate_child] at located
  cases before : d.locate 0 (d.base p) p.names with
  | error trouble =>
    rw [before] at located
    cases located
  | ok place =>
    obtain ⟨here, links⟩ := place
    obtain rfl : links = 0 := Nat.le_zero.mp (left_le_of_locate before)
    rw [before] at located
    have onward : d.locate 0 here [name] = .ok (there, 0) := located
    refine ⟨here, ⟨before, fun other listed => ?_⟩, undotted, foldl_of_locate onward⟩
    exact reaches.undotted other (List.mem_append_left _ listed)

/-- One folder up is where two dots lead. -/
theorem Reaches.up (reaches : d.Reaches p here) (looked : d.entry here up = .ok item) :
    d.Reaches p.up (step here up) := by
  have folder := folder_of_entry_up looked
  have further : d.Reaches (p.child Disk.up) (step here Disk.up) :=
    reaches.child rfl looked (by simp [folder])
  rcases names_eq_nil_or_child p with none | ⟨q, name, rfl⟩
  · by_cases relative : p.slashes = 0
    · have child : p.up = p.child Disk.up := by rw [Path.up, none]; exact if_pos relative
      exact child ▸ further
    · have same : p.up = p := by rw [Path.up, none]; exact if_neg relative
      have located := reaches.located
      rw [base, if_neg relative, none, Disk.locate] at located
      cases located
      exact same.symm ▸ reaches
  · by_cases upward : name = Disk.up
    · rw [upward] at further ⊢
      exact up_child_up q ▸ further
    · obtain ⟨above, before, undotted, rfl⟩ := reaches.of_child
      have back : step (step above name) Disk.up = above := by
        rw [step_of_proper ⟨undotted, upward⟩]
        simp [step, isDot, Disk.up]
      rw [up_child q upward, back]
      exact before

theorem Reaches.spelling (reaches : d.Reaches p here) :
    d.spelling (p.child name) = ((d.spelling (p.child name)).1, here ++ [name]) := by
  have last : (p.child name).names.getLast? = some name := List.getLast?_concat
  have front : (p.child name).names.dropLast = p.names := List.dropLast_concat
  have base : d.base (p.child name) = d.base p := rfl
  refine Prod.ext rfl ?_
  rw [Disk.spelling, front, base, reaches.locate, Path.name, last]
  rfl

theorem Reaches.toward (reaches : d.Reaches p here) (target : Text) :
    d.Reaches (p.toward target) (targetBase here target) := by
  rw [Path.toward, targetBase]
  split
  · exact ⟨by rw [Disk.locate]; rfl, by simp⟩
  · exact reaches

theorem reaches_start (d : Disk) (p : Path) : d.Reaches p.start (d.base p) := by
  have same : d.base p.start = d.base p := by
    rw [base, base]
    congr 1
    simp [Path.start]
  exact ⟨by rw [same, Path.start, Disk.locate], by simp [Path.start]⟩

end Reaches

theorem item?_of_entry_link {target : Text} (link : d.entry here name = .ok (.link target)) :
    d.item? (here ++ [name]) = some (.link target) :=
  item?_of_entry (proper_of_entry_link link) link

section Settle

variable {fresh : List (Nat × Location)}

theorem settle_nil : d.settle fresh p [] = .ok p := by rw [settle]

theorem settle_of_dot (dotted : isDot name = true) :
    d.settle fresh p (name :: rest) = d.settle fresh p rest := by
  rw [settle, if_pos dotted]

theorem settle_up : d.settle fresh p (up :: rest) = d.settle fresh p.up rest := by
  have other : isDot up = false := rfl
  rw [settle, other, if_neg Bool.false_ne_true, if_pos rfl]

/-- What is no link is taken as it is written. -/
theorem settle_of_plain (proper : IsProper name)
    (plain : ∀ target, d.look (p.child name) ≠ .ok (.link target)) :
    d.settle fresh p (name :: rest) = d.settle fresh (p.child name) rest := by
  rw [settle, proper.1, if_neg Bool.false_ne_true, if_neg proper.2]
  split
  · rename_i target link
    exact (plain target link).elim
  · rfl

/-- What the system refuses to look up is taken as it is written, too. -/
theorem settle_of_refused {why : Refusal} (proper : IsProper name)
    (refused : d.refuses.path (p.child name) = some why) :
    d.settle fresh p (name :: rest) = d.settle fresh (p.child name) rest := by
  refine settle_of_plain proper fun target link => ?_
  rw [look, refused] at link
  cases link

theorem Reaches.settle_child (reaches : d.Reaches p here) (proper : IsProper name)
    (looked : d.entry here name = .ok item) (plain : ∀ target, item = .link target → False)
    (free : d.refuses.path (p.child name) = none) :
    d.settle fresh p (name :: rest) = d.settle fresh (p.child name) rest := by
  have look := (look_child (reaches.locate linkLimit) free).trans looked
  exact settle_of_plain proper fun target link => plain target (Except.ok.inj (look.symm.trans link))

theorem settle_of_link {target : Text} {q : Path} (proper : IsProper name)
    (link : d.look (p.child name) = .ok (.link target)) (listed : d.spelling (p.child name) ∈ fresh)
    (settled : d.settle (fresh.erase (d.spelling (p.child name))) (p.toward target)
      (targetNames target) = .ok q) :
    d.settle fresh p (name :: rest) = d.settle fresh q rest := by
  rw [settle, proper.1, if_neg Bool.false_ne_true, if_neg proper.2, link]
  dsimp only
  rw [dif_pos listed, settled]

theorem form_lt (d : Disk) (p : Path) : (d.spelling p).1 < d.home.length + 2 := by
  rw [spelling]
  split <;> omega

theorem mem_spellings_of_link {form : Nat} {target : Text} (small : form < d.home.length + 2)
    (link : d.item? here = some (.link target)) : (form, here) ∈ d.spellings := by
  rw [item?] at link
  split at link
  · cases link
  · obtain ⟨before, after, split, -⟩ := List.lookup_eq_some_iff.mp link
    refine List.mem_flatMap.mpr ⟨form, List.mem_range.mpr small, ?_⟩
    exact List.mem_map.mpr ⟨(here, .link target), by simp [split], rfl⟩

theorem Reaches.mem_spellings {target : Text} (reaches : d.Reaches p here)
    (link : d.entry here name = .ok (.link target)) : d.spelling (p.child name) ∈ d.spellings :=
  reaches.spelling ▸ mem_spellings_of_link (form_lt d _) (item?_of_entry_link link)

/-- To follow a link that is not fresh takes more links than so many. -/
def Costs (d : Disk) (fresh : List (Nat × Location)) (n : Nat) : Prop :=
  ∀ form folder name target, form < d.home.length + 2 →
    d.item? (folder ++ [name]) = some (.link target) → (form, folder ++ [name]) ∉ fresh →
    ∀ more elsewhere fewer, d.locate more folder [name] = .ok (elsewhere, fewer) → n < more - fewer

theorem costs_spellings (d : Disk) (n : Nat) : d.Costs d.spellings n :=
  fun _ _ _ _ small link stale => (stale (mem_spellings_of_link small link)).elim

theorem Costs.mono {n m : Nat} (costs : d.Costs fresh n) (fewer : m ≤ n) : d.Costs fresh m :=
  fun form folder name target small link stale more elsewhere left found =>
    Nat.lt_of_le_of_lt fewer (costs form folder name target small link stale more elsewhere left found)

theorem Costs.mem {form n : Nat} {target : Text} (costs : d.Costs fresh n)
    (small : form < d.home.length + 2) (link : d.item? (here ++ [name]) = some (.link target))
    (followed : d.locate links here [name] = .ok (there, left)) (cheap : links - left ≤ n) :
    (form, here ++ [name]) ∈ fresh := by
  rcases Decidable.em ((form, here ++ [name]) ∈ fresh) with listed | stale
  · exact listed
  · exact absurd (costs form here name target small link stale links there left followed)
      (Nat.not_lt.mpr cheap)

/-- While a link is followed, it is a link that costs more than what is left of it. -/
theorem Costs.erase {form : Nat} {n m : Nat} (costs : d.Costs fresh n) (fewer : m ≤ n)
    (followed : d.locate links here [name] = .ok (there, left)) (less : m < links - left) :
    d.Costs (fresh.erase (form, here ++ [name])) m := by
  intro other folder last target small link stale more elsewhere rest found
  by_cases same : (other, folder ++ [last]) = (form, here ++ [name])
  · obtain ⟨rfl, alike⟩ := List.append_inj' (Prod.mk.inj same).2 rfl
    cases alike
    rwa [spent_eq found followed]
  · have still : (other, folder ++ [last]) ∉ fresh := fun listed =>
      stale ((List.mem_erase_of_ne same).mpr listed)
    exact Nat.lt_of_le_of_lt fewer
      (costs other folder last target small link still more elsewhere rest found)

/-- A name that is no link's is settled where it leads. -/
theorem Reaches.exists_settle (reaches : d.Reaches p here) (looked : d.entry here name = .ok item)
    (plain : ∀ target, item = .link target → False) (free : d.refuses.path (p.child name) = none) :
    ∃ q, d.Reaches q (step here name) ∧
      ∀ fresh rest, d.settle fresh p (name :: rest) = d.settle fresh q rest := by
  by_cases dotted : isDot name = true
  · rw [step, if_pos dotted]
    exact ⟨p, reaches, fun _ _ => settle_of_dot dotted⟩
  · by_cases upward : name = Disk.up
    · subst upward
      exact ⟨p.up, reaches.up looked, fun _ _ => settle_up⟩
    · have undotted : isDot name = false := Bool.eq_false_iff.mpr dotted
      exact ⟨p.child name, reaches.child undotted looked plain,
        fun _ _ => reaches.settle_child ⟨undotted, upward⟩ looked plain free⟩

/-- Where the system comes to, a path is settled too if paths can be of any length, and if to follow a
link that is not fresh takes more links than that. For a link that led back to itself would have to be
followed while it is followed. -/
theorem settle_of_locate (free : ∀ q, d.refuses.path q = none) (n : Nat)
    (located : d.locate links here names = .ok (there, left)) (reaches : d.Reaches p here)
    (enough : links ≤ left + n) (costs : d.Costs fresh n) :
    ∃ q, d.settle fresh p names = .ok q ∧ d.Reaches q there := by
  induction n using Nat.strongRecOn generalizing fresh links left here there names p with
  | ind n deeper =>
  induction names generalizing here p with
  | nil =>
    rw [locate] at located
    cases located
    exact ⟨p, settle_nil, reaches⟩
  | cons name rest ih =>
    cases looked : d.entry here name with
    | error trouble =>
      rw [locate_of_error looked] at located
      cases located
    | ok item =>
      have look : d.look (p.child name) = .ok item :=
        (look_child (reaches.locate linkLimit) (free _)).trans looked
      by_cases link : ∃ target, item = .link target
      · obtain ⟨target, rfl⟩ := link
        obtain ⟨fewer, middle, kept, rfl, first, followed, onward⟩ := locate_through_link looked located
        have least := left_le_of_locate onward
        have less := left_le_of_locate first
        have spelled : d.spelling (p.child name) =
          ((d.spelling (p.child name)).1, here ++ [name]) := reaches.spelling
        have listed : d.spelling (p.child name) ∈ fresh := spelled ▸
          costs.mem (form_lt d _) (item?_of_entry_link looked) followed (by omega)
        have inner : ∃ q, d.settle (fresh.erase (d.spelling (p.child name))) (p.toward target)
            (targetNames target) = .ok q ∧ d.Reaches q middle := by
          refine deeper (fewer - kept) (by omega) first (reaches.toward target) (by omega) ?_
          exact spelled ▸ costs.erase (by omega) followed (by omega)
        obtain ⟨q, settled, arrived⟩ := inner
        rw [settle_of_link (proper_of_entry_link looked) look listed settled]
        exact deeper (kept - left) (by omega) onward arrived (by omega) (costs.mono (by omega))
      · have plain : ∀ target, item = .link target → False :=
          fun target same => link ⟨target, same⟩
        obtain ⟨q, arrived, onward⟩ := reaches.exists_settle looked plain (free _)
        rw [locate_of_plain looked plain] at located
        rw [onward]
        exact ih located arrived

end Settle

section Resolve

theorem place_of_settle {q : Path} (settled : d.settle d.spellings p.start p.names = .ok q) :
    d.place p = d.location q := by
  rw [place, settled]

theorem resolve_of_place (whole : p.hasNull = false) (settled : d.place p = there)
    (straight : d.find ⟨1, there⟩ ≠ .error .tooManyLinks) : d.resolve p = .ok there := by
  rw [resolve, whole, if_neg Bool.false_ne_true, settled]
  split
  · rename_i circling
    exact (straight circling).elim
  · rfl

/-- The limit on the length of paths does not change where a path is taken to lead, and the place to
which it leads is told. -/
def Unhindered (d : Disk) (p : Path) : Prop := d.resolve p = .ok (d.boundless.place p)

theorem locate_boundless (d : Disk) (links : Nat) (here : Location) (names : List Text) :
    d.boundless.locate links here names = d.locate links here names := by
  induction links, here, names using Disk.locate.induct d with
  | case1 links here => rw [locate, locate]
  | case2 links here name rest trouble looked =>
    rw [locate_of_error looked]
    exact locate_of_error looked
  | case3 here name rest target link =>
    rw [locate_exhausted link]
    exact locate_exhausted link
  | case4 here name rest target link fewer ih =>
    rw [Nat.succ_eq_add_one, locate_of_link link, ← ih]
    exact locate_of_link link
  | case5 links here name rest item plain looked ih =>
    rw [locate_of_plain looked plain, ← ih]
    exact locate_of_plain looked plain

/-- Were there no limit on the length of paths, a path that the system can follow would lead to where
it is taken to lead in comparisons. -/
theorem place_of_find (found : d.find p = .ok (there, left)) : d.boundless.place p = there := by
  have located := (find_eq_ok_iff.mp found).2
  rw [← locate_boundless] at located
  obtain ⟨q, settled, reaches⟩ := settle_of_locate (fun _ => rfl) linkLimit located
    (reaches_start d.boundless p) (Nat.le_add_left _ _) (costs_spellings d.boundless linkLimit)
  rw [place_of_settle settled, reaches.location]

theorem resolve_of_find (unhindered : d.Unhindered p) (found : d.find p = .ok (there, left)) :
    d.resolve p = .ok there := by
  rw [unhindered, place_of_find found]

end Resolve

end PromptAudit.Disk
