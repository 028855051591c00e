import PromptAudit.Proofs.Text.Pieces
import PromptAudit.Storage.Locate

namespace PromptAudit.Disk

variable {d : Disk} {links left : Nat} {here there : Location} {name : Text} {rest names : List Text}
  {item : Item} {p : Path}

/-- What is left over may be more or less; the links that are followed are the same. -/
theorem locate_spare (located : d.locate links here names = .ok (there, left)) (spare : Nat) :
    d.locate (links - left + spare) here names = .ok (there, spare) := by
  induction links, here, names using Disk.locate.induct d with
  | case1 links here =>
    rw [locate] at located
    cases located
    rw [Nat.sub_self, Nat.zero_add, locate]
  | case2 links here name rest trouble looked =>
    rw [locate_of_error looked] at located
    cases located
  | case3 here name rest target link =>
    rw [locate_exhausted link] at located
    cases located
  | case4 here name rest target link fewer ih =>
    rw [Nat.succ_eq_add_one, locate_of_link link] at located
    have room := left_le_of_locate located
    have more : fewer.succ - left + spare = fewer - left + spare + 1 := by omega
    rw [more, locate_of_link link, ih located]
  | case5 links here name rest item plain looked ih =>
    rw [locate_of_plain looked plain] at located
    rw [locate_of_plain looked plain, ih located]

/-- However many links may be followed, as many are followed. -/
theorem spent_eq {more fewer : Nat} {elsewhere : Location}
    (located : d.locate links here names = .ok (there, left))
    (again : d.locate more here names = .ok (elsewhere, fewer)) : links - left = more - fewer := by
  have first := locate_spare located (more - fewer)
  have second := locate_spare again (links - left)
  rw [Nat.add_comm, second] at first
  exact (Prod.mk.inj (Except.ok.inj first)).2

/-- A way over a link leads to where the link leads, and on from there. -/
theorem locate_through_link {target : Text} (link : d.entry here name = .ok (.link target))
    (located : d.locate links here (name :: rest) = .ok (there, left)) :
    ∃ fewer middle kept, links = fewer + 1 ∧
      d.locate fewer (targetBase here target) (targetNames target) = .ok (middle, kept) ∧
      d.locate (fewer + 1) here [name] = .ok (middle, kept) ∧
      d.locate kept middle rest = .ok (there, left) := by
  cases links with
  | zero =>
    rw [locate_exhausted link] at located
    cases located
  | succ fewer =>
    rw [locate_of_link link, locate_append] at located
    cases first : d.locate fewer (targetBase here target) (targetNames target) with
    | error trouble =>
      rw [first] at located
      cases located
    | ok place =>
      obtain ⟨middle, kept⟩ := place
      rw [first] at located
      refine ⟨fewer, middle, kept, rfl, first, ?_, located⟩
      rw [locate_of_link link, List.append_nil, first]

theorem names_eq_nil_or_child (p : Path) : p.names = [] ∨ ∃ q name, p = Path.child q name := by
  obtain ⟨slashes, names⟩ := p
  rcases List.eq_nil_or_concat names with rfl | ⟨front, name, rfl⟩
  · exact .inl rfl
  · exact .inr ⟨⟨slashes, front⟩, name, by rw [List.concat_eq_append, Path.child]⟩

theorem hasNull_of_barred (free : d.barred p = none) : p.hasNull = false := by
  unfold barred at free
  split at free
  · cases free
  · simp_all

theorem path_of_barred (free : d.barred p = none) : d.refuses.path p = none := by
  rw [barred, hasNull_of_barred free, if_neg Bool.false_ne_true] at free
  exact Option.map_eq_none_iff.mp free

theorem barred_of_whole (whole : p.hasNull = false) :
    d.barred p = (d.refuses.path p).map .refused := by
  rw [barred, whole, if_neg Bool.false_ne_true]

section Length

theorem path_of_short (usual : d.refuses = {}) (short : (Text.encode p.toText).length ≤ longestPath) :
    d.refuses.path p = none := by
  rw [usual]
  exact if_neg (Nat.not_lt.mpr short)

theorem path_of_long (usual : d.refuses = {}) (long : longestPath < (Text.encode p.toText).length) :
    d.refuses.path p = some .tooLong := by
  rw [usual]
  exact if_pos long

theorem hasNull_eq_false_iff : p.hasNull = false ↔ ∀ name ∈ p.names, name.contains '\x00' = false := by
  simp [Path.hasNull]

/-- So much longer is a path for a name that stands in front of it so many times. -/
theorem length_toText_replicate (n : Nat) (name first : Text) (rest : List Text) :
    (Text.encode (Path.mk 0 (List.replicate n name ++ first :: rest)).toText).length =
      n * ((Text.encode name).length + 1) + (Text.encode (Path.mk 0 (first :: rest)).toText).length := by
  have slash : (Text.encode ['/']).length = 1 := by decide
  induction n with
  | zero => rw [Nat.zero_mul, Nat.zero_add]; rfl
  | succ n ih =>
    obtain ⟨second, more, split⟩ := List.exists_cons_of_ne_nil
      (List.append_ne_nil_of_right_ne_nil (List.replicate n name) (List.cons_ne_nil first rest))
    have joined : (Path.mk 0 (name :: second :: more)).toText =
        name ++ (['/'] ++ (Path.mk 0 (second :: more)).toText) := Text.join_cons_cons _ _ _ _
    rw [split] at ih
    rw [List.replicate_succ, List.cons_append, split, joined, Text.encode_append, Text.encode_append,
      List.length_append, List.length_append, slash, ih, Nat.add_mul]
    omega

end Length

theorem barred_of_find (found : d.find p = .ok (there, left)) : d.barred p = none :=
  (find_eq_ok_iff.mp found).1

theorem peek_of_free (free : d.barred p = none) : d.peek p = d.look p := by
  rw [peek, hasNull_of_barred free, if_neg Bool.false_ne_true]

theorem peek_of_barred {why : Refusal} (hindered : d.barred p = some (.refused why)) :
    d.peek p = .error (.refused why) := by
  unfold barred at hindered
  split at hindered
  · cases hindered
  · rename_i null
    obtain ⟨other, refused, same⟩ := Option.map_eq_some_iff.mp hindered
    cases same
    rw [peek, if_neg null, look, refused]

/-- What stands at the last name of a path is what is found under it in the folder before it. -/
theorem look_child (located : d.locate linkLimit (d.base p) p.names = .ok (here, links))
    (free : d.refuses.path (p.child name) = none) : d.look (p.child name) = d.entry here name := by
  have last : (p.child name).names.getLast? = some name := List.getLast?_concat
  have front : (p.child name).names.dropLast = p.names := List.dropLast_concat
  have base : d.base (p.child name) = d.base p := rfl
  rw [look, free, last, front, base, located]

theorem peek_child (found : d.find p = .ok (here, links)) (free : d.barred (p.child name) = none) :
    d.peek (p.child name) = d.entry here name := by
  rw [peek_of_free free, look_child (find_eq_ok_iff.mp found).2 (path_of_barred free)]

/-- What leads somewhere stands somewhere. -/
theorem ownStatus_of_status (leads : d.status p = .ok (some item)) :
    ∃ own, d.ownStatus p = .ok (some own) := by
  obtain ⟨there, left, found, holds⟩ := status_eq_some_iff.mp leads
  obtain ⟨free, located⟩ := find_eq_ok_iff.mp found
  have shown := peek_of_free free
  rcases names_eq_nil_or_child p with none | ⟨q, name, rfl⟩
  · refine ⟨item, tested_eq_some_iff.mpr (shown.trans ?_)⟩
    rw [look, path_of_barred free, none]
    exact follow_eq_ok_iff.mpr ⟨there, left, found, holds⟩
  · rw [locate_child] at located
    cases before : d.locate linkLimit (d.base q) q.names with
    | error trouble =>
      rw [before] at located
      cases located
    | ok place =>
      obtain ⟨here, links⟩ := place
      rw [before] at located
      have last : d.locate links here [name] = .ok (there, left) := located
      rw [look_child before (path_of_barred free)] at shown
      rcases step_or_link_of_locate last with ⟨-, -, own, looked, -⟩ | ⟨-, target, link⟩
      · exact ⟨own, tested_eq_some_iff.mpr (shown.trans looked)⟩
      · exact ⟨.link target, tested_eq_some_iff.mpr (shown.trans link)⟩

theorem locate_of_find_child (found : d.find p = .ok (here, links))
    (onward : d.find (p.child name) = .ok (there, left)) :
    d.locate links here [name] = .ok (there, left) := by
  have arrived := (find_eq_ok_iff.mp onward).2
  rw [locate_child, (find_eq_ok_iff.mp found).2] at arrived
  exact arrived

theorem listing_eq_ok_iff {listed : List Text} :
    d.listing p = .ok listed ↔
      ∃ here links, d.find p = .ok (here, links) ∧ d.item? here = some .folder ∧
        d.refuses.content here = none ∧ d.names here = listed := by
  unfold listing
  cases d.find p with
  | error trouble => simp
  | ok place =>
    obtain ⟨here, links⟩ := place
    dsimp only
    split
    · simp_all
    · split <;> simp_all
    · simp_all

theorem read_eq_ok_iff {bytes : Bytes} :
    d.read p = .ok bytes ↔
      ∃ here links, d.find p = .ok (here, links) ∧ d.item? here = some (.file bytes) ∧
        d.refuses.content here = none := by
  unfold read
  cases d.find p with
  | error trouble => simp
  | ok place =>
    obtain ⟨here, links⟩ := place
    dsimp only
    split
    · split <;> simp_all
    · simp_all
    · simp_all

theorem read_of_hasNull (null : p.hasNull = true) : d.read p = .error .missing := by
  rw [read, find, barred, if_pos null]

end PromptAudit.Disk
