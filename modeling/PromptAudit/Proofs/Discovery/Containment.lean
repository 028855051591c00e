import PromptAudit.Proofs.Discovery.Eligible
import PromptAudit.Proofs.Storage.Settle

namespace PromptAudit.Discovery

/-- The root of a walk, and each link on a way below it, is taken to lead where it leads. -/
structure Trusty (w : Rules d) (below : List Text) : Prop where
  root : d.Unhindered w.root
  link {front : List Text} {target : Text} (before : front <+: below)
    (link : d.ownStatus (w.path front) = .ok (some (.link target))) : d.Unhindered (w.path front)

variable {d : Disk} {w : Rules d} {links left : Nat} {here there : Location} {below : List Text}
  {name : Text}

theorem Trusty.mono {above : List Text} (trusty : Trusty w below) (before : above <+: below) :
    Trusty w above :=
  ⟨trusty.root, fun inner => trusty.link (inner.trans before)⟩

/-- No source is called by a dot or by two of them. -/
theorem proper_of_wanted (wanted : Wanted w (below ++ [name])) : Disk.IsProper name := by
  have source := wanted.source
  have last : (w.path (below ++ [name])).name = name := by
    rw [path_concat, Path.name, Path.child, List.getLast?_concat]
    rfl
  rw [Path.isSource, Path.suffix, last] at source
  refine ⟨Bool.eq_false_iff.mpr fun dotted => ?_, ?_⟩
  · have shapes : name = [] ∨ name = ['.'] := by simpa [Disk.isDot] using dotted
    rcases shapes with rfl | rfl <;> exact absurd source (by decide)
  · rintro rfl
    exact absurd source (by decide)

theorem ownStatus_concat {item : Item} (found : d.find (w.path below) = .ok (here, links))
    (free : d.barred (w.path (below ++ [name])) = none) (looked : d.entry here name = .ok item) :
    d.ownStatus (w.path (below ++ [name])) = .ok (some item) := by
  rw [path_concat] at free ⊢
  exact Disk.tested_eq_some_iff.mpr ((Disk.peek_child found free).trans looked)

/-- From a place within the bound a name leads to a place within it. Only a link can lead anywhere but
into its own folder, and the place where it leads is known to be within. -/
theorem bound_of_step (trusty : Trusty w (below ++ [name]))
    (found : d.find (w.path below) = .ok (here, links)) (within : w.bound <+: here)
    (proper : Disk.IsProper name) (inside : Inside w (w.path (below ++ [name])))
    (onward : d.find (w.path (below ++ [name])) = .ok (there, left)) : w.bound <+: there := by
  have step := onward
  rw [path_concat] at step
  rcases Disk.step_or_link_of_locate (Disk.locate_of_find_child found step) with
    ⟨rfl, -, -⟩ | ⟨-, target, link⟩
  · rw [Disk.step_of_proper proper]
    exact within.trans (List.prefix_append _ _)
  · have own := ownStatus_concat found (Disk.barred_of_find onward) link
    obtain ⟨place, settled, within⟩ := inside target own
    have leads := Disk.resolve_of_find (trusty.link (List.prefix_refl _) own) onward
    cases leads.symm.trans settled
    exact within

theorem find_root (trusty : Trusty w below) (found : d.find (w.path []) = .ok (here, links)) :
    w.bound = here := by
  rw [Rules.path, List.append_nil] at found
  exact Except.ok.inj (w.settled.symm.trans (Disk.resolve_of_find trusty.root found))

/-- A way starts in a folder, which is the bound. -/
theorem Way.item?_bound (way : Way w below) (trusty : Trusty w below) :
    d.item? w.bound = some .folder := by
  obtain ⟨name, rest, rfl⟩ := List.exists_cons_of_ne_nil way.start
  have first : Lists d (w.path []) name := way.listed (List.prefix_append [name] rest)
  obtain ⟨names, listed, -⟩ := first
  obtain ⟨here, links, found, folder, -⟩ := Disk.listing_eq_ok_iff.mp listed
  rw [find_root trusty found]
  exact folder

/-- All folders that a walk enters are within the bound. -/
theorem bound_of_descends (descends : Descends w [] below) (trusty : Trusty w below)
    (found : d.find (w.path below) = .ok (here, links)) : w.bound <+: here := by
  induction descends generalizing here links with
  | refl => exact find_root trusty found ▸ List.prefix_refl _
  | tail _ opens ih =>
    obtain ⟨name, rfl, ⟨names, listed, -⟩, enters⟩ := opens
    obtain ⟨before, more, start, -⟩ := Disk.listing_eq_ok_iff.mp listed
    obtain ⟨inside, -, passes⟩ := turn_eq_enter_iff.mp enters
    exact bound_of_step trusty start (ih (trusty.mono (List.prefix_append _ _)) start)
      (proper_of_enters passes) inside found

/-- Every source that the walk of a folder finds stands below that folder, through whatever links the
walk came to it, if the folder and these links lead where they are taken to lead. -/
theorem walk_contained {seen : List Sighting} (returned : walk w [] = .ok seen)
    (listed : w.path below ∈ sources seen) (trusty : Trusty w below) :
    ∃ inner, inner ≠ [] ∧ (∃ left, d.find (w.path below) = .ok (w.bound ++ inner, left)) ∧
      (d.Unhindered (w.path below) → d.resolve (w.path below) = .ok (w.bound ++ inner)) := by
  obtain ⟨other, lies⟩ := (mem_sources_iff returned).mp listed
  obtain ⟨same, eligible⟩ := mem_course_source_iff.mp lies
  obtain rfl : below = other := List.append_cancel_left (congrArg Path.names same)
  obtain ⟨above, name, rfl⟩ := (List.eq_nil_or_concat' below).resolve_left eligible.start
  obtain ⟨descends, names, contents, -⟩ := way_concat_iff.mp eligible.toWay
  obtain ⟨here, links, start, folder, -⟩ := Disk.listing_eq_ok_iff.mp contents
  obtain ⟨bytes, read, -⟩ := eligible.text
  obtain ⟨there, left, found, file, -⟩ := Disk.read_eq_ok_iff.mp read
  have within := bound_of_descends descends (trusty.mono (List.prefix_append _ _)) start
  obtain ⟨inner, joined⟩ := bound_of_step trusty start within (proper_of_wanted eligible.toWanted)
    eligible.inside found
  subst joined
  refine ⟨inner, fun nothing => ?_, ⟨left, found⟩, fun told => Disk.resolve_of_find told found⟩
  rw [nothing, List.append_nil, eligible.item?_bound trusty] at file
  cases file

/-- A file found through two links stands below the root. -/
theorem linked_walk_contained :
    ∃ seen, walk heeding [] = .ok seen ∧
      heeding.path ["chain".toList, "z.rb".toList] ∈ sources seen ∧
      Trusty heeding ["chain".toList, "z.rb".toList] ∧
      ∃ inner, inner ≠ [] ∧ ∃ left,
        linked.find (heeding.path ["chain".toList, "z.rb".toList]) = .ok (heeding.bound ++ inner, left) := by
  have trusty : Trusty heeding ["chain".toList, "z.rb".toList] := by
    refine ⟨by rw [Disk.Unhindered]; cbv, fun {front target} before link => ?_⟩
    rcases List.mem_inits _ _ |>.mpr before with _ | ⟨_, _ | ⟨_, _ | ⟨_, none⟩⟩⟩
    · rw [Disk.Unhindered]; cbv
    · rw [Disk.Unhindered]; cbv
    · rw [Disk.Unhindered]; cbv
    · cases none
  refine ⟨_, walk_heeding, List.mem_singleton_self _, trusty, ?_⟩
  obtain ⟨inner, some, stands, -⟩ :=
    walk_contained walk_heeding (List.mem_singleton_self _) trusty
  exact ⟨inner, some, stands⟩

section Straying

/-- A folder with a link over another link, which leads out, and a hidden folder where the first one
would lead without the other. -/
def sunken : Disk where
  home := []
  entries := [
    (["r".toList], .folder),
    (["r".toList, ".h".toList], .folder),
    (["r".toList, ".h".toList, "elsewhere".toList], .link "/lib/e".toList),
    (["r".toList, ".h".toList, "q".toList], .folder),
    (["r".toList, ".h".toList, "q".toList, "o.rb".toList], .link "/lib/q/o.rb".toList),
    (["r".toList, "s".toList], .link ".h/elsewhere/../q".toList),
    (["lib".toList], .folder),
    (["lib".toList, "e".toList], .folder),
    (["lib".toList, "q".toList], .folder),
    (["lib".toList, "q".toList, "o.rb".toList], .file [])]

/-- So many times up from the top. -/
def upward (n : Nat) : Path := ⟨0, List.replicate n Disk.up⟩

def rounds : Nat := 1361

/-- The folder, by a path to which no more than a few characters can be added. -/
def roundabout : Path := (upward rounds).child "r".toList

/-- What lies below the folder. -/
def beyond (names : List Text) : Path := { roundabout with names := roundabout.names ++ names }

variable {n : Nat} {names rest : List Text} {place : Location} {q : Path}
  {fresh : List (Nat × Location)}

theorem beyond_concat (names : List Text) (name : Text) :
    beyond (names ++ [name]) = (beyond names).child name := by
  rw [beyond, beyond, Path.child, List.append_assoc]

theorem names_beyond (names : List Text) :
    (beyond names).names = (upward rounds).names ++ ("r".toList :: names) :=
  List.append_assoc _ ["r".toList] names

theorem length_beyond (names : List Text) :
    (Text.encode (beyond names).toText).length =
      rounds * 3 + (Text.encode (Path.mk 0 ("r".toList :: names)).toText).length := by
  have long := Disk.length_toText_replicate rounds Disk.up "r".toList names
  have flat : beyond names = ⟨0, (upward rounds).names ++ ("r".toList :: names)⟩ := by
    rw [← names_beyond]
    rfl
  rw [flat]
  exact long

theorem path_beyond (short : (Text.encode (Path.mk 0 ("r".toList :: names)).toText).length ≤ 12) :
    sunken.refuses.path (beyond names) = none := by
  refine Disk.path_of_short rfl ?_
  rw [length_beyond, rounds, longestPath]
  omega

theorem path_elsewhere :
    sunken.refuses.path (beyond [".h".toList, "elsewhere".toList]) = some .tooLong := by
  have long : (Text.encode (Path.mk 0 ["r".toList, ".h".toList, "elsewhere".toList]).toText).length =
    14 := by decide
  refine Disk.path_of_long rfl ?_
  rw [length_beyond, long, rounds, longestPath]
  omega

theorem barred_beyond (short : (Text.encode (Path.mk 0 ("r".toList :: names)).toText).length ≤ 12)
    (whole : (Path.mk 0 ("r".toList :: names)).hasNull = false) :
    sunken.barred (beyond names) = none := by
  have all : (beyond names).hasNull = false := by
    refine Disk.hasNull_eq_false_iff.mpr fun name listed => ?_
    rw [names_beyond] at listed
    rcases List.mem_append.mp listed with up | more
    · rw [List.eq_of_mem_replicate up]
      decide
    · exact Disk.hasNull_eq_false_iff.mp whole name more
  rw [Disk.barred_of_whole all, path_beyond short]
  rfl

theorem up_upward (n : Nat) : (upward n).up = upward (n + 1) := by
  cases n with
  | zero => rfl
  | succ n =>
    rw [upward, upward, List.replicate_succ', List.replicate_succ' (n := n + 1), List.replicate_succ']
    exact Disk.up_child_up (upward n)

theorem settle_upward (m : Nat) :
    d.settle fresh (upward m) ((upward n).names ++ rest) = d.settle fresh (upward (m + n)) rest := by
  induction n generalizing m with
  | zero => rfl
  | succ n ih =>
    have split : (upward (n + 1)).names ++ rest = Disk.up :: ((upward n).names ++ rest) := rfl
    rw [split, Disk.settle_up, up_upward, ih, Nat.add_assoc, Nat.add_comm 1]

theorem reaches_upward (n : Nat) : sunken.Reaches (upward n) [] := by
  have folder : sunken.entry [] Disk.up = .ok .folder := by decide
  induction n with
  | zero => exact Disk.reaches_start sunken ⟨0, []⟩
  | succ n ih => exact up_upward n ▸ ih.up folder

theorem entry_folder : sunken.entry [] "r".toList = .ok .folder := by decide

theorem entry_hidden : sunken.entry ["r".toList] ".h".toList = .ok .folder := by decide

theorem entry_decoy : sunken.entry ["r".toList, ".h".toList] "q".toList = .ok .folder := by decide

theorem reaches_roundabout : sunken.Reaches roundabout ["r".toList] :=
  (reaches_upward rounds).child rfl entry_folder (by simp)

theorem reaches_hidden : sunken.Reaches (beyond [".h".toList]) ["r".toList, ".h".toList] :=
  reaches_roundabout.child rfl entry_hidden (by simp)

theorem reaches_decoy :
    sunken.Reaches (beyond [".h".toList, "q".toList]) ["r".toList, ".h".toList, "q".toList] := by
  have reaches : sunken.Reaches ((beyond [".h".toList]).child "q".toList) _ :=
    reaches_hidden.child rfl entry_decoy (by simp)
  rwa [← beyond_concat] at reaches

theorem find_beyond (free : sunken.barred (beyond names) = none)
    (located : sunken.locate 40 ["r".toList] names = .ok (there, left)) :
    sunken.find (beyond names) = .ok (there, left) := by
  have split := Disk.locate_append (d := sunken) 40 [] roundabout.names names
  have start : sunken.locate 40 [] roundabout.names = .ok (["r".toList], 40) :=
    reaches_roundabout.locate 40
  rw [start] at split
  exact Disk.find_eq_ok_iff.mpr ⟨free, split.trans located⟩

theorem settle_beyond (names : List Text) :
    sunken.settle fresh (beyond names).start (beyond names).names =
      sunken.settle fresh roundabout names := by
  have free : sunken.refuses.path ((upward rounds).child "r".toList) = none := by
    have none : sunken.refuses.path (beyond []) = none := path_beyond (by decide)
    rwa [beyond, List.append_nil] at none
  rw [names_beyond]
  refine (settle_upward 0).trans ?_
  rw [Nat.zero_add]
  exact (reaches_upward rounds).settle_child ⟨rfl, by decide⟩ entry_folder (by simp) free

/-- Over the other link, which is not seen, the way comes back to the folder and into a hidden one. -/
theorem settle_decoy :
    sunken.settle fresh roundabout [".h".toList, "elsewhere".toList, Disk.up, "q".toList] =
      .ok (beyond [".h".toList, "q".toList]) := by
  have h : sunken.refuses.path (beyond [".h".toList]) = none := path_beyond (by decide)
  have unseen : sunken.refuses.path ((beyond [".h".toList]).child "elsewhere".toList) =
      some .tooLong := by
    rw [← beyond_concat]
    exact path_elsewhere
  have q : sunken.refuses.path ((beyond [".h".toList]).child "q".toList) = none := by
    rw [← beyond_concat]
    exact path_beyond (by decide)
  refine (reaches_roundabout.settle_child ⟨rfl, by decide⟩ entry_hidden (by simp) h).trans ?_
  refine (Disk.settle_of_refused (p := beyond [".h".toList]) ⟨rfl, by decide⟩ unseen).trans ?_
  rw [Disk.settle_up, Disk.up_child _ (by decide)]
  refine (reaches_hidden.settle_child ⟨rfl, by decide⟩ entry_decoy (by simp) q).trans ?_
  rw [Disk.settle_nil, ← beyond_concat]
  rfl

theorem settle_shortcut :
    sunken.settle sunken.spellings roundabout ("s".toList :: rest) =
      sunken.settle sunken.spellings (beyond [".h".toList, "q".toList]) rest := by
  have entry : sunken.entry ["r".toList] "s".toList = .ok (.link ".h/elsewhere/../q".toList) := by
    decide
  have names : Disk.targetNames ".h/elsewhere/../q".toList =
    [".h".toList, "elsewhere".toList, Disk.up, "q".toList] := by decide
  have free : sunken.refuses.path (beyond ["s".toList]) = none := path_beyond (by decide)
  have link := (Disk.look_child (reaches_roundabout.locate _) free).trans entry
  refine Disk.settle_of_link (Disk.proper_of_entry_link entry) link
    (reaches_roundabout.mem_spellings entry) ?_
  rw [names]
  exact settle_decoy

theorem settle_file :
    sunken.settle sunken.spellings (beyond [".h".toList, "q".toList]) ["o.rb".toList] =
      .ok (.ofText "/lib/q/o.rb".toList) := by
  have entry : sunken.entry ["r".toList, ".h".toList, "q".toList] "o.rb".toList =
    .ok (.link "/lib/q/o.rb".toList) := by decide
  have names : Disk.targetNames "/lib/q/o.rb".toList =
    [[], "lib".toList, "q".toList, "o.rb".toList] := by decide
  have free : sunken.refuses.path ((beyond [".h".toList, "q".toList]).child "o.rb".toList) = none := by
    rw [← beyond_concat]
    exact path_beyond (by decide)
  have link := (Disk.look_child (reaches_decoy.locate _) free).trans entry
  refine (Disk.settle_of_link (Disk.proper_of_entry_link entry) link (reaches_decoy.mem_spellings entry)
    ?_).trans Disk.settle_nil
  have leads (fresh : List (Nat × Location)) : sunken.settle fresh ⟨1, []⟩
    [[], "lib".toList, "q".toList, "o.rb".toList] = .ok (.ofText "/lib/q/o.rb".toList) := by cbv
  rw [names]
  exact leads _

theorem resolve_beyond (free : sunken.barred (beyond names) = none)
    (settled : sunken.settle sunken.spellings roundabout names = .ok q)
    (lies : sunken.location q = place) (straight : sunken.find ⟨1, place⟩ = .ok (place, 40)) :
    sunken.resolve (beyond names) = .ok place := by
  refine Disk.resolve_of_place (Disk.hasNull_of_barred free) ?_ (by simp [straight])
  rw [Disk.place_of_settle ((settle_beyond names).trans settled), lies]

theorem resolve_roundabout : sunken.resolve roundabout = .ok ["r".toList] := by
  have settled := resolve_beyond (barred_beyond (by decide) rfl) Disk.settle_nil
    reaches_roundabout.location (by cbv)
  rwa [beyond, List.append_nil] at settled

def straying : Rules sunken where
  root := roundabout
  bound := ["r".toList]
  settled := resolve_roundabout
  skipped := []
  ignored _ := false

theorem find_folder : sunken.find (straying.path []) = .ok (["r".toList], 40) :=
  find_beyond (barred_beyond (by decide) rfl) (by cbv)

theorem find_shortcut : sunken.find (straying.path ["s".toList]) = .ok (["lib".toList, "q".toList], 38) :=
  find_beyond (barred_beyond (by decide) rfl) (by cbv)

theorem find_file : sunken.find (straying.path ["s".toList, "o.rb".toList]) =
    .ok (["lib".toList, "q".toList, "o.rb".toList], 38) :=
  find_beyond (barred_beyond (by decide) rfl) (by cbv)

theorem resolve_shortcut : sunken.resolve (straying.path ["s".toList]) =
    .ok ["r".toList, ".h".toList, "q".toList] :=
  resolve_beyond (barred_beyond (by decide) rfl) (settle_shortcut.trans Disk.settle_nil)
    reaches_decoy.location (by cbv)

theorem resolve_file : sunken.resolve (straying.path ["s".toList, "o.rb".toList]) =
    .ok ["lib".toList, "q".toList, "o.rb".toList] :=
  resolve_beyond (barred_beyond (by decide) rfl) (settle_shortcut.trans settle_file) (by cbv) (by cbv)

theorem branch_hidden : branch straying [] ".h".toList = [] := by
  have free : sunken.barred (straying.path ([] ++ [".h".toList])) = none :=
    barred_beyond (by decide) rfl
  have own := ownStatus_concat find_folder free entry_hidden
  have leads : sunken.status (straying.path ([] ++ [".h".toList])) = .ok (some .folder) :=
    Disk.status_eq_some_iff.mpr ⟨_, _, find_beyond free (by cbv), by decide⟩
  have hidden : straying.enters [] ".h".toList = false := by decide
  rw [branch, turn_of_inside (inside_of_plain own (by simp)) own, arrive, leads, hidden]
  rfl

theorem turn_shortcut : turn straying [] "s".toList = .enter :=
  turn_eq_enter_iff.mpr ⟨fun _ _ => ⟨_, resolve_shortcut, List.prefix_append _ _⟩,
    Disk.status_eq_some_iff.mpr ⟨_, _, find_shortcut, by decide⟩, by decide⟩

theorem isSource_file : (straying.path (["s".toList] ++ ["o.rb".toList])).isSource = true := by
  have last : ((straying.path ["s".toList]).child "o.rb".toList).name = "o.rb".toList := by
    rw [Path.name, Path.child, List.getLast?_concat]
    rfl
  rw [path_concat, Path.isSource, Path.suffix, last]
  decide +kernel

theorem branch_file : branch straying ["s".toList] "o.rb".toList = [
    (["s".toList] ++ ["o.rb".toList],
      .ok (.source (straying.path (["s".toList] ++ ["o.rb".toList]))))] := by
  have entry : sunken.entry ["lib".toList, "q".toList] "o.rb".toList = .ok (.file []) := by decide
  have own := ownStatus_concat find_shortcut (Disk.barred_of_find find_file) entry
  have read : sunken.read (straying.path (["s".toList] ++ ["o.rb".toList])) = .ok [] :=
    Disk.read_eq_ok_iff.mpr ⟨_, _, find_file, by decide, rfl⟩
  have source := turn_eq_source_iff.mpr ⟨rfl, inside_of_plain own (by simp),
    ⟨isSource_file, rfl, [], read, List.not_mem_nil⟩⟩
  rw [branch, source]
  rfl

theorem walk_straying :
    walk straying [] = .ok [.source (straying.path ["s".toList, "o.rb".toList])] := by
  have top : sunken.listing (straying.path []) = .ok [".h".toList, "s".toList] :=
    Disk.listing_eq_ok_iff.mpr ⟨_, _, find_folder, by decide, rfl, by cbv⟩
  have inner : sunken.listing (straying.path ["s".toList]) = .ok ["o.rb".toList] :=
    Disk.listing_eq_ok_iff.mpr ⟨_, _, find_shortcut, by decide, rfl, by cbv⟩
  have under : course straying ["s".toList] = _ := course_of_listing inner
  rw [walk_eq, course_of_listing top]
  simp only [List.flatMap_cons, List.flatMap_nil, branch_hidden, branch_of_enter turn_shortcut,
    List.nil_append, List.append_nil, under, branch_file]
  rfl

/-- The link is taken to lead to the hidden folder, so that it is followed, and the walk finds a file
that is outside of its root, whether it is settled or followed to where it stands. -/
theorem straying_walk_escapes :
    ∃ seen left, walk straying [] = .ok seen ∧
      straying.path ["s".toList, "o.rb".toList] ∈ sources seen ∧
      sunken.resolve straying.root = .ok straying.bound ∧
      sunken.resolve (straying.path ["s".toList, "o.rb".toList]) =
        .ok ["lib".toList, "q".toList, "o.rb".toList] ∧
      sunken.find (straying.path ["s".toList, "o.rb".toList]) =
        .ok (["lib".toList, "q".toList, "o.rb".toList], left) ∧
      ¬ straying.bound <+: ["lib".toList, "q".toList, "o.rb".toList] :=
  ⟨_, 38, walk_straying, List.mem_singleton_self _, straying.settled, resolve_file, find_file, by decide⟩

end Straying

end PromptAudit.Discovery
