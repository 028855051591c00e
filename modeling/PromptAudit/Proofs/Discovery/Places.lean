import Mathlib
import PromptAudit.Proofs.Discovery.Search

namespace PromptAudit.Discovery

/-- How many paths come before the first one that leads where a path does. -/
def arrival (d : Disk) (paths : List Path) (p : Path) : Nat :=
  paths.findIdx fun c => d.place? c = d.place? p

/-- One path to each place to which some candidates lead: the first of them that leads there, in the
order in which the places are first come to. -/
structure Picks (d : Disk) (candidates found : List Path) : Prop where
  settled : ∀ p ∈ candidates, ∃ place, d.place? p = some place
  distinct : (found.map d.place?).Nodup
  drawn : ∀ q ∈ found, q ∈ candidates
  first : ∀ p ∈ candidates, ∃ q ∈ found,
    candidates.find? (fun c => d.place? c = d.place? p) = some q ∧
      ∀ r ∈ found, d.place? r = d.place? p → r = q
  ordered : found.Pairwise fun p q => arrival d candidates p < arrival d candidates q

variable {reader : IgnoreReader} {d : Disk} {skipped : List Text} {seen : List (Option Location)} {p q : Path}
  {paths front back found : List Path}

theorem firstOfEach_of_seen (known : d.place? q ∈ seen) :
    firstOfEach d seen (q :: paths) = firstOfEach d seen paths := by
  rw [firstOfEach, if_pos (List.contains_iff_mem.mpr known)]

theorem firstOfEach_of_new (new : d.place? q ∉ seen) :
    firstOfEach d seen (q :: paths) = q :: firstOfEach d (d.place? q :: seen) paths := by
  rw [firstOfEach, if_neg (mt List.contains_iff_mem.mp new)]

/-- A path is kept when it leads to a new place and no path before it leads there. -/
theorem mem_firstOfEach_iff :
    p ∈ firstOfEach d seen paths ↔
      d.place? p ∉ seen ∧ paths.find? (fun c => d.place? c = d.place? p) = some p := by
  induction paths generalizing seen with
  | nil => simp [firstOfEach]
  | cons q rest ih =>
    by_cases known : d.place? q ∈ seen
    · rw [firstOfEach_of_seen known, ih]
      refine and_congr_right fun new => ?_
      have other : d.place? q ≠ d.place? p := fun same => new (same ▸ known)
      rw [List.find?_cons_of_neg (by simpa using other)]
    · rw [firstOfEach_of_new known, List.mem_cons, ih, List.mem_cons, not_or]
      by_cases same : d.place? q = d.place? p
      · rw [List.find?_cons_of_pos (by simpa using same)]
        constructor
        · rintro (rfl | ⟨⟨new, -⟩, -⟩)
          · exact ⟨known, rfl⟩
          · exact absurd same.symm new
        · intro h
          obtain ⟨-, kept⟩ := h
          exact .inl (Option.some.inj kept).symm
      · rw [List.find?_cons_of_neg (by simpa using same)]
        constructor
        · rintro (rfl | ⟨⟨-, new⟩, found⟩)
          · exact absurd rfl same
          · exact ⟨new, found⟩
        · intro h
          obtain ⟨new, found⟩ := h
          exact .inr ⟨⟨Ne.symm same, new⟩, found⟩

theorem arrival_cons_of_ne (other : d.place? q ≠ d.place? p) :
    arrival d (q :: paths) p = arrival d paths p + 1 := by
  rw [arrival, List.findIdx_cons, decide_eq_false other]
  rfl

theorem arrival_cons_self (paths : List Path) (q : Path) : arrival d (q :: paths) q = 0 := by
  rw [arrival, List.findIdx_cons, decide_eq_true rfl]
  rfl

theorem firstOfEach_pairwise (seen : List (Option Location)) (paths : List Path) :
    (firstOfEach d seen paths).Pairwise fun p q => arrival d paths p < arrival d paths q := by
  induction paths generalizing seen with
  | nil => exact List.Pairwise.nil
  | cons first rest ih =>
    have later {seen : List (Option Location)} (known : d.place? first ∈ seen) {p : Path}
        (kept : p ∈ firstOfEach d seen rest) :
        arrival d (first :: rest) p = arrival d rest p + 1 :=
      arrival_cons_of_ne fun same => (mem_firstOfEach_iff.mp kept).1 (same ▸ known)
    have shifted {seen : List (Option Location)} (known : d.place? first ∈ seen) :
        (firstOfEach d seen rest).Pairwise fun p q =>
          arrival d (first :: rest) p < arrival d (first :: rest) q := by
      refine (ih seen).imp_of_mem fun {p q} keptP keptQ before => ?_
      rw [later known keptP, later known keptQ]
      exact Nat.succ_lt_succ before
    by_cases known : d.place? first ∈ seen
    · rw [firstOfEach_of_seen known]
      exact shifted known
    · rw [firstOfEach_of_new known, List.pairwise_cons]
      refine ⟨fun p kept => ?_, shifted List.mem_cons_self⟩
      rw [arrival_cons_self, later List.mem_cons_self kept]
      exact Nat.succ_pos _

/-- Paths to places already come to change nothing. -/
theorem firstOfEach_append (present : ∀ p ∈ back, d.place? p ∈ seen ∨
    ∃ q ∈ front, d.place? q = d.place? p) :
    firstOfEach d seen (front ++ back) = firstOfEach d seen front := by
  induction front generalizing seen with
  | nil =>
    rw [List.nil_append, firstOfEach, List.eq_nil_iff_forall_not_mem]
    intro p kept
    obtain ⟨new, found⟩ := mem_firstOfEach_iff.mp kept
    rcases present p (List.mem_of_find?_eq_some found) with known | ⟨q, listed, -⟩
    · exact new known
    · exact List.not_mem_nil listed
  | cons first rest ih =>
    rw [List.cons_append]
    by_cases known : d.place? first ∈ seen
    · rw [firstOfEach_of_seen known, firstOfEach_of_seen known]
      refine ih fun p listed => ?_
      rcases present p listed with here | ⟨q, listed, same⟩
      · exact .inl here
      · rcases List.mem_cons.mp listed with rfl | later
        · exact .inl (same ▸ known)
        · exact .inr ⟨q, later, same⟩
    · rw [firstOfEach_of_new known, firstOfEach_of_new known]
      congr 1
      refine ih fun p listed => ?_
      rcases present p listed with here | ⟨q, listed, same⟩
      · exact .inl (List.mem_cons_of_mem _ here)
      · rcases List.mem_cons.mp listed with rfl | later
        · exact .inl (List.mem_cons.mpr (.inl same.symm))
        · exact .inr ⟨q, later, same⟩

theorem picks_firstOfEach (settled : ∀ p ∈ paths, ∃ place, d.place? p = some place) :
    Picks d paths (firstOfEach d [] paths) := by
  have ordered := firstOfEach_pairwise (d := d) [] paths
  have chosen {q : Path} (kept : q ∈ firstOfEach d [] paths) := (mem_firstOfEach_iff.mp kept).2
  refine ⟨settled, ?_, fun q kept => List.mem_of_find?_eq_some (chosen kept), fun p listed => ?_,
    ordered⟩
  · refine List.pairwise_map.mpr (ordered.imp fun {p q} before same => ?_)
    rw [arrival, arrival, same] at before
    exact Nat.lt_irrefl _ before
  · obtain ⟨q, found⟩ : ∃ q, paths.find? (fun c => d.place? c = d.place? p) = some q :=
      Option.isSome_iff_exists.mp (List.find?_isSome.mpr ⟨p, listed, by simp⟩)
    have same : d.place? q = d.place? p := by simpa using List.find?_some found
    refine ⟨q, mem_firstOfEach_iff.mpr ⟨List.not_mem_nil, by rwa [same]⟩, found, ?_⟩
    intro r kept there
    have again := chosen kept
    rw [there, found] at again
    exact (Option.some.inj again).symm

theorem StandsFor.itself {item : Option Item} {place : Location} (leads : d.status p = .ok item)
    (alone : item ≠ some .folder) (settled : d.resolve p = .ok place) :
    StandsFor reader d skipped p [p] :=
  ⟨.itself leads alone, fun _ only => ⟨place, List.mem_singleton.mp only ▸ settled⟩⟩

theorem settled_flatten {files : List (List Path)}
    (stands : List.Forall₂ (StandsFor reader d skipped) paths files) :
    ∀ q ∈ files.flatten, ∃ place, d.place? q = some place := by
  intro q listed
  obtain ⟨group, member, listed⟩ := List.mem_flatten.mp listed
  obtain ⟨p, -, stands⟩ := exists_left_of_matching stands member
  obtain ⟨place, settled⟩ := stands.settled q listed
  exact ⟨place, by rw [Disk.place?, settled]; rfl⟩

/-- A search that returned returns the same when paths are added that stand only for files at places
it has come to. -/
theorem discover_append {files : List (List Path)}
    (stands : List.Forall₂ (StandsFor reader d skipped) paths files) {more : List Path}
    {others : List (List Path)} (also : List.Forall₂ (StandsFor reader d skipped) more others)
    (present : ∀ p ∈ others.flatten, ∃ q ∈ files.flatten, d.place? q = d.place? p) :
    ∃ notices, discover reader d skipped (paths ++ more) =
      .ok (firstOfEach d [] files.flatten, notices) := by
  refine exists_discover_iff.mpr ⟨files ++ others, List.rel_append stands also, ?_⟩
  rw [List.flatten_append, firstOfEach_append]
  exact fun p listed => .inr (present p listed)

/-- A search that returns neither loses nor repeats a file that its paths stand for, and paths to
the same files change nothing. -/
theorem discover_picks {notices : List Notice}
    (returned : discover reader d skipped paths = .ok (found, notices)) :
    ∃ files, List.Forall₂ (StandsFor reader d skipped) paths files ∧ Picks d files.flatten found ∧
    (∃ others, discover reader d skipped (paths ++ paths) = .ok (found, others)) ∧
    ∀ extra more, StandsFor reader d skipped extra more →
      (∀ p ∈ more, ∃ q ∈ found, d.place? q = d.place? p) →
      ∃ others, discover reader d skipped (paths ++ [extra]) = .ok (found, others) := by
  obtain ⟨files, stands, rfl⟩ := exists_discover_iff.mp ⟨notices, returned⟩
  have picks := picks_firstOfEach (settled_flatten stands)
  refine ⟨files, stands, picks, ?_, fun extra more also present => ?_⟩
  · exact discover_append stands stands fun p listed => ⟨p, listed, rfl⟩
  · refine discover_append stands (.cons also .nil) fun p listed => ?_
    obtain ⟨q, kept, same⟩ := present p (by simpa using listed)
    exact ⟨q, picks.drawn q kept, same⟩

/-- A folder with a source and a link to it. -/
def doubled : Disk where
  home := ["srv".toList]
  entries := [
    (["srv".toList], .folder),
    (["srv".toList, "lib".toList], .folder),
    (["srv".toList, "lib".toList, "a.rb".toList], .file []),
    (["srv".toList, "lib".toList, "z.rb".toList], .link "a.rb".toList)]

def doubling : Rules doubled where
  root := .ofText "lib".toList
  bound := ["srv".toList, "lib".toList]
  settled := by cbv
  skipped := []
  ignored _ := false

/-- A reader that heeds no line of an ignore file. -/
def heedless : IgnoreReader := fun _ => .ok fun _ => false

theorem walk_doubling : walk doubling [] = .ok [
    .source (doubling.path ["a.rb".toList]), .source (doubling.path ["z.rb".toList])] := by
  have listed : doubled.listing (doubling.path []) = .ok ["a.rb".toList, "z.rb".toList] := by cbv
  have file : doubled.ownStatus (doubling.path ["a.rb".toList]) = .ok (some (.file [])) := by cbv
  have place : doubled.resolve (doubling.path ["z.rb".toList]) =
    .ok (doubling.bound ++ ["a.rb".toList]) := by cbv
  have a : turn doubling [] "a.rb".toList = .note (.source (doubling.path ["a.rb".toList])) :=
    turn_eq_source_iff.mpr ⟨rfl, inside_of_plain file (by simp),
      ⟨by decide +kernel, rfl, [], by cbv, List.not_mem_nil⟩⟩
  have z : turn doubling [] "z.rb".toList = .note (.source (doubling.path ["z.rb".toList])) :=
    turn_eq_source_iff.mpr ⟨rfl, fun _ _ => ⟨_, place, List.prefix_append _ _⟩,
      ⟨by decide +kernel, rfl, [], by cbv, List.not_mem_nil⟩⟩
  rw [walk_eq, course_of_listing listed]
  simp only [List.flatMap_cons, List.flatMap_nil, branch, a, z]
  rfl

/-- The folder stands for the source and for the link. -/
theorem standsFor_lib : StandsFor heedless doubled [] (.ofText "lib".toList)
    [.ofText "lib/a.rb".toList, .ofText "lib/z.rb".toList] := by
  have folder : doubled.status (.ofText "lib".toList) = .ok (some .folder) := by cbv
  have untold : doubled.status (Path.child (.ofText "lib".toList) ".gitignore".toList) = .ok none := by
    cbv
  have legible : Legible doubled (.ofText "lib".toList) := ⟨folder, ⟨none, untold⟩, fun read => by
    cases untold.symm.trans (status_of_read read)⟩
  have governs : Governs heedless [] (.ofText "lib".toList) doubling := ⟨rfl, rfl, rfl⟩
  refine ⟨.walked legible governs walk_doubling, fun q listed => ?_⟩
  rcases List.mem_cons.mp listed with rfl | last
  · exact ⟨["srv".toList, "lib".toList, "a.rb".toList], by cbv⟩
  · rw [List.mem_singleton.mp last]
    exact ⟨["srv".toList, "lib".toList, "a.rb".toList], by cbv⟩

/-- Two spellings of a missing file, and a source that is named through its link before its
folder. -/
def overlapping : List Path :=
  ["gone.rb", "lib/z.rb", "lib", "lib/../gone.rb"].map fun t => .ofText t.toList

/-- What is found of them. -/
def overlappingFound : List Path := ["gone.rb", "lib/z.rb"].map fun t => .ofText t.toList

theorem overlapping_discover :
    ∃ notices, discover heedless doubled [] overlapping = .ok (overlappingFound, notices) := by
  have gone : doubled.status (.ofText "gone.rb".toList) = .ok none := by cbv
  have link : doubled.status (.ofText "lib/z.rb".toList) = .ok (some (.file [])) := by cbv
  have back : doubled.status (.ofText "lib/../gone.rb".toList) = .ok none := by cbv
  have top : doubled.resolve (.ofText "gone.rb".toList) = .ok ["srv".toList, "gone.rb".toList] := by
    cbv
  have inner : doubled.resolve (.ofText "lib/z.rb".toList) =
    .ok ["srv".toList, "lib".toList, "a.rb".toList] := by cbv
  have again : doubled.resolve (.ofText "lib/../gone.rb".toList) =
    .ok ["srv".toList, "gone.rb".toList] := by cbv
  refine exists_discover_iff.mpr ⟨[[.ofText "gone.rb".toList], [.ofText "lib/z.rb".toList],
    [.ofText "lib/a.rb".toList, .ofText "lib/z.rb".toList], [.ofText "lib/../gone.rb".toList]], ?_, ?_⟩
  · exact .cons (.itself gone (by simp) top) (.cons (.itself link (by simp) inner)
      (.cons standsFor_lib (.cons (.itself back (by simp) again) .nil)))
  · cbv

theorem overlapping_picks : ∃ notices files,
    discover heedless doubled [] overlapping = .ok (overlappingFound, notices) ∧
    List.Forall₂ (StandsFor heedless doubled []) overlapping files ∧
    Picks doubled files.flatten overlappingFound ∧
    (∃ others, discover heedless doubled [] (overlapping ++ overlapping) =
      .ok (overlappingFound, others)) ∧
    ∃ others, discover heedless doubled [] (overlapping ++ [.ofText "lib/a.rb".toList]) =
      .ok (overlappingFound, others) := by
  obtain ⟨notices, returned⟩ := overlapping_discover
  obtain ⟨files, stands, picks, again, added⟩ := discover_picks returned
  have file : doubled.status (.ofText "lib/a.rb".toList) = .ok (some (.file [])) := by cbv
  have place : doubled.resolve (.ofText "lib/a.rb".toList) =
    .ok ["srv".toList, "lib".toList, "a.rb".toList] := by cbv
  refine ⟨notices, files, returned, stands, picks, again, added _ _ (.itself file (by simp) place) ?_⟩
  intro p only
  rw [List.mem_singleton.mp only]
  exact ⟨.ofText "lib/z.rb".toList, by decide, by cbv⟩

end PromptAudit.Discovery
