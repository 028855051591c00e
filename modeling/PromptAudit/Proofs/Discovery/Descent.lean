import PromptAudit.Proofs.Discovery.Places
import PromptAudit.Proofs.Storage.Settle

namespace PromptAudit.Discovery

/-- A path that can be followed to a place, and is taken to lead there. -/
def StandsAt (d : Disk) (place : Location) (p : Path) : Prop :=
  d.Unhindered p ∧ ∃ left, d.find p = .ok (place, left)

variable {d : Disk}

/-- One folder is entered from another: its name is not shut out, and its path can be followed to a
folder over so many links. Where those links lead is left open, within the root or out of it. -/
def Enters (limit : Nat) (w : Rules d) (deeper below : List Text) : Prop :=
  ∃ name, deeper = below ++ [name] ∧ w.enters below name = true ∧
    d.OpensWithin limit (w.path deeper)

/-- One level of the walk, with what lies below its folders left open and without a measure. -/
def level (w : Rules d) (deeper : List Text → Except Stop (List Sighting)) (below : List Text) :
    Except Stop (List Sighting) :=
  match d.listing (w.path below) with
  | .error trouble => .ok [.unlisted (w.path below) trouble]
  | .ok names =>
      let levels : Except Stop (List (List Sighting)) := names.mapM fun name =>
        match turn w below name with
        | .pass => .ok []
        | .note s => .ok [s]
        | .enter => deeper (below ++ [name])
        | .stop stop => .error stop
      levels.map List.flatten

variable {reader : IgnoreReader} {w : Rules d} {skipped : List Text} {limit : Nat} {place : Location}
  {below deeper : List Text} {name : Text} {p q : Path}

section Enters

theorem reserve_lt (enters : Enters limit w deeper below) :
    d.reserve limit (w.path deeper) < d.reserve limit (w.path below) := by
  obtain ⟨name, rfl, allowed, opens⟩ := enters
  rw [path_concat] at opens ⊢
  exact Disk.reserve_child_lt (proper_of_enters allowed) opens

theorem enters_wellFounded (limit : Nat) (w : Rules d) : WellFounded (Enters limit w) :=
  Subrelation.wf reserve_lt (measure fun below => d.reserve limit (w.path below)).wf

theorem reserve_le (p : Path) : d.reserve limit p ≤ limit * (d.depth + 1) + d.depth := by
  unfold Disk.reserve
  split
  · rename_i here left located
    have fewer := Disk.left_le_of_locate located
    have spent : left * (d.depth + 1) ≤ limit * (d.depth + 1) := Nat.mul_le_mul_right _ fewer
    omega
  · exact Nat.zero_le _

/-- However the links lead, no way on which every folder is entered is longer than this. -/
theorem length_le_of_enters (below : List Text)
    (entered : ∀ above name, above ++ [name] <+: below → Enters limit w (above ++ [name]) above) :
    below.length ≤ limit * (d.depth + 1) + d.depth := by
  have spent : below.length + d.reserve limit (w.path below) ≤ d.reserve limit (w.path []) := by
    induction below using List.reverseRecOn with
    | nil => simp
    | append_singleton above name ih =>
      have before := ih fun front other inside => entered front other
        (inside.trans (List.prefix_append _ _))
      have less := reserve_lt (entered above name (List.prefix_refl _))
      rw [List.length_append, List.length_singleton]
      omega
  have most : d.reserve limit (w.path []) ≤ limit * (d.depth + 1) + d.depth := reserve_le _
  omega

theorem enters_of_turn (turns : turn w below name = .enter) :
    Enters Disk.linkLimit w (below ++ [name]) below := by
  obtain ⟨-, folder, enters⟩ := turn_eq_enter_iff.mp turns
  exact ⟨name, rfl, enters, Disk.opensWithin_of_status folder⟩

end Enters

section Level

/-- The walk of a folder is one level of it, and the walks of the folders below. -/
theorem walk_eq_level (w : Rules d) : walk w = level w (walk w) := by
  funext below
  rw [walk, level]
  cases d.listing (w.path below) with
  | error trouble => rfl
  | ok names =>
    dsimp only
    congr 2
    funext name
    cases turns : turn w below name <;> rfl

/-- A level depends only on what lies below the folders that are entered from it. -/
theorem level_congr {first second : List Text → Except Stop (List Sighting)}
    (same : ∀ deeper, Enters Disk.linkLimit w deeper below → first deeper = second deeper) :
    level w first below = level w second below := by
  unfold level
  cases d.listing (w.path below) with
  | error trouble => rfl
  | ok names =>
    dsimp only
    congr 2
    funext name
    cases turns : turn w below name with
    | enter => exact same _ (enters_of_turn turns)
    | _ => rfl

/-- However links lead back, there is one way to answer the recursion of the walk. -/
theorem eq_walk_iff {answer : List Text → Except Stop (List Sighting)} :
    answer = level w answer ↔ answer = walk w := by
  constructor
  · intro answers
    funext below
    induction below using (enters_wellFounded Disk.linkLimit w).induction with
    | _ below ih =>
      rw [answers, walk_eq_level]
      exact level_congr ih
  · intro same
    rw [same]
    exact walk_eq_level w

end Level

theorem StandsAt.place? (stands : StandsAt d place p) : d.place? p = some place := by
  obtain ⟨unhindered, left, found⟩ := stands
  rw [Disk.place?, Disk.resolve_of_find unhindered found]
  rfl

theorem StandsFor.drawn {files : List Path} (stands : StandsFor reader d skipped p files)
    (listed : q ∈ files) : q = p ∨ ∃ (w : Rules d) (seen : List Sighting),
      Governs reader skipped p w ∧ walk w [] = .ok seen ∧ q ∈ sources seen := by
  cases stands.yields with
  | itself => exact .inl (List.mem_singleton.mp listed)
  | @walked w seen legible governs walks => exact .inr ⟨w, seen, governs, walks, listed⟩

/-- A folder with a source and a link to the folder itself. -/
def cyclic : Disk where
  home := ["srv".toList]
  entries := [
    (["srv".toList], .folder),
    (app, .folder),
    (app ++ ["a.rb".toList], .file []),
    (app ++ ["self".toList], .link ".".toList)]

/-- The folder may be gone around once. -/
def circling : Rules cyclic where
  root := .ofText "app".toList
  bound := app
  settled := by cbv
  skipped := []
  ignored names := names = ["self".toList, "self".toList, []]

/-- Each step around takes one link. -/
example : Enters 1 circling ["self".toList] [] :=
  ⟨"self".toList, rfl, by decide +kernel, app, 0, by cbv, by cbv⟩

example : ¬ cyclic.OpensWithin 1 (circling.path ["self".toList, "self".toList]) := by
  intro h
  obtain ⟨here, left, located, -⟩ := h
  have exhausted : cyclic.locate 1 (cyclic.base circling.root)
    (circling.path ["self".toList, "self".toList]).names = .error .tooManyLinks := by cbv
  cases exhausted.symm.trans located

theorem walk_circling : walk circling [] = .ok [
    .source (circling.path ["a.rb".toList]),
    .source (circling.path ["self".toList, "a.rb".toList])] := by
  have top : cyclic.listing (circling.path []) = .ok ["a.rb".toList, "self".toList] := by cbv
  have around : cyclic.listing (circling.path ["self".toList]) = .ok ["a.rb".toList, "self".toList] := by
    cbv
  have file : cyclic.ownStatus (circling.path ["a.rb".toList]) = .ok (some (.file [])) := by cbv
  have again : cyclic.ownStatus (circling.path ["self".toList, "a.rb".toList]) =
    .ok (some (.file [])) := by cbv
  have a : turn circling [] "a.rb".toList = .note (.source (circling.path ["a.rb".toList])) :=
    turn_eq_source_iff.mpr ⟨rfl, inside_of_plain file (by simp),
      ⟨by decide +kernel, by decide +kernel, [], by cbv, List.not_mem_nil⟩⟩
  have b : turn circling ["self".toList] "a.rb".toList =
      .note (.source (circling.path ["self".toList, "a.rb".toList])) :=
    turn_eq_source_iff.mpr ⟨rfl, inside_of_plain again (by simp),
      ⟨by decide +kernel, by decide +kernel, [], by cbv, List.not_mem_nil⟩⟩
  have enters : turn circling [] "self".toList = .enter := by cbv
  have passes : turn circling ["self".toList] "self".toList = .pass := by cbv
  have inner : course circling ["self".toList] = _ := course_of_listing around
  rw [walk_eq, course_of_listing top]
  simp only [List.flatMap_cons, List.flatMap_nil, branch_of_enter enters, List.nil_append, inner]
  simp only [branch, a, b, passes]
  rfl

section Looping

/-- A name that can be looked up. No path that can be followed holds more than twenty of them. -/
def wide : Text := List.replicate 200 'z'

/-- A folder with a source, and with a link of that name to the folder itself. -/
def looping : Disk where
  home := ["srv".toList]
  entries := [
    (["srv".toList], .folder),
    (["srv".toList, "a.rb".toList], .file []),
    (["srv".toList, wide], .link ".".toList)]

/-- So many times around. -/
def around (n : Nat) : List Text := List.replicate n wide

theorem around_succ (n : Nat) : around (n + 1) = around n ++ [wide] := List.replicate_succ'

theorem length_wide : (Text.encode wide).length = 200 := by decide +kernel

theorem entry_wide : looping.entry ["srv".toList] wide = .ok (.link ".".toList) := by decide +kernel

/-- However often around, the folder itself is settled on. -/
theorem settle_around (n : Nat) :
    looping.settle looping.spellings ⟨0, []⟩ (around n) = .ok ⟨0, []⟩ := by
  have start : looping.Reaches ⟨0, []⟩ ["srv".toList] := Disk.reaches_start looping ⟨0, []⟩
  have short : (Text.encode (Path.child ⟨0, []⟩ wide).toText).length ≤ longestPath :=
    length_wide.trans_le (by decide)
  have link := (Disk.look_child (start.locate _) (Disk.path_of_short rfl short)).trans entry_wide
  induction n with
  | zero => exact Disk.settle_nil
  | succ n ih =>
    rw [around, List.replicate_succ]
    refine (Disk.settle_of_link (Disk.proper_of_entry_link entry_wide) link
      (start.mem_spellings entry_wide) ?_).trans ih
    exact (Disk.settle_of_dot rfl).trans Disk.settle_nil

theorem whole_around (n : Nat) : (Path.mk 0 (around n)).hasNull = false :=
  Disk.hasNull_eq_false_iff.mpr fun name listed => by
    rw [List.eq_of_mem_replicate listed]
    decide

theorem resolve_around (n : Nat) : looping.resolve ⟨0, around n⟩ = .ok ["srv".toList] := by
  have entry : looping.entry [] "srv".toList = .ok .folder := by decide
  have placed : looping.place ⟨0, around n⟩ = looping.location ⟨0, []⟩ :=
    Disk.place_of_settle (settle_around n)
  refine Disk.resolve_of_place (whole_around n) placed ?_
  have found : looping.find ⟨1, ["srv".toList]⟩ = .ok (["srv".toList], 40) := by
    refine Disk.find_eq_ok_iff.mpr ⟨by decide, ?_⟩
    refine (Disk.locate_of_plain entry (by simp)).trans ?_
    rw [Disk.locate]
    rfl
  intro circling
  cases found.symm.trans circling

theorem length_around (n : Nat) :
    (Text.encode (Path.mk 0 (around (n + 1))).toText).length = n * 201 + 200 := by
  have longer := Disk.length_toText_replicate n wide wide []
  rw [length_wide] at longer
  rw [around_succ]
  exact longer.trans (congrArg (n * 201 + ·) length_wide)

theorem barred_around {n : Nat} (short : n ≤ 20) : looping.barred ⟨0, around n⟩ = none := by
  rw [Disk.barred_of_whole (whole_around n), Disk.path_of_short rfl]
  · rfl
  · cases n with
    | zero => decide
    | succ n =>
      rw [length_around, longestPath]
      omega

theorem barred_at_last : looping.barred ⟨0, around 21⟩ = some (.refused .tooLong) := by
  rw [Disk.barred_of_whole (whole_around 21), Disk.path_of_long rfl]
  · rfl
  · rw [length_around, longestPath]
    omega

def roaming : Rules looping where
  root := ⟨0, []⟩
  bound := ["srv".toList]
  settled := resolve_around 0
  skipped := []
  ignored _ := false

theorem locate_around (links n : Nat) :
    looping.locate (links + n) ["srv".toList] (around n) = .ok (["srv".toList], links) := by
  have dot : looping.entry ["srv".toList] ".".toList = .ok .folder := by decide
  induction n with
  | zero => rw [around, List.replicate_zero, Disk.locate]; rfl
  | succ n ih =>
    rw [around, List.replicate_succ, ← Nat.add_assoc, Disk.locate_of_link entry_wide]
    exact (Disk.locate_of_plain dot (by simp)).trans ih

theorem find_around {n : Nat} (short : n ≤ 20) :
    looping.find (roaming.path (around n)) = .ok (["srv".toList], 40 - n) := by
  refine Disk.find_eq_ok_iff.mpr ⟨barred_around short, ?_⟩
  have located := locate_around (40 - n) n
  rw [Nat.sub_add_cancel (by omega)] at located
  exact located

theorem lists_around {n : Nat} (short : n ≤ 20) : Lists looping (roaming.path (around n)) wide := by
  have link := Disk.item?_of_entry_link entry_wide
  exact ⟨_, Disk.listing_eq_ok_iff.mpr ⟨_, _, find_around short, by decide, rfl, rfl⟩,
    Disk.mem_names_iff.mpr ⟨_, link⟩⟩

theorem descends_around {n : Nat} (short : n ≤ 20) : Descends roaming [] (around n) := by
  induction n with
  | zero => exact .refl
  | succ n ih =>
    have found := find_around short
    have before : n ≤ 20 := by omega
    rw [around_succ] at found ⊢
    refine descends_concat_iff.mpr ⟨ih before, lists_around before, turn_eq_enter_iff.mpr ⟨?_, ?_, ?_⟩⟩
    · rw [← around_succ]
      exact fun _ _ => ⟨_, resolve_around (n + 1), List.prefix_refl _⟩
    · exact Disk.status_eq_some_iff.mpr ⟨_, _, found, by decide⟩
    · exact (Bool.and_eq_true _ _).mpr ⟨by decide, rfl⟩

theorem legible_home : Legible looping ⟨0, []⟩ := by
  have absent : looping.entry ["srv".toList] ".gitignore".toList = .error .missing := by
    decide
  have free : looping.barred (Path.child ⟨0, []⟩ ".gitignore".toList) = none := by decide
  have lost : looping.find (Path.child ⟨0, []⟩ ".gitignore".toList) = .error .missing := by
    rw [Disk.find, free]
    exact Disk.locate_of_error absent
  have untold : looping.status (Path.child ⟨0, []⟩ ".gitignore".toList) = .ok none := by
    rw [Disk.status, Disk.follow, lost]
    rfl
  have folder : looping.status ⟨0, []⟩ = .ok (some .folder) :=
    Disk.status_eq_some_iff.mpr ⟨_, _, find_around (Nat.zero_le 20), by decide⟩
  exact ⟨folder, ⟨none, untold⟩, fun read => by cases untold.symm.trans (status_of_read read)⟩

end Looping

end PromptAudit.Discovery
