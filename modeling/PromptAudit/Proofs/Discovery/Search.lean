import Mathlib
import PromptAudit.Proofs.Discovery.Eligible
import PromptAudit.Proofs.List.Matching

namespace PromptAudit.Discovery

/-- The lines of a folder's ignore file. There are none where no text can be read. -/
def linesIn (d : Disk) (p : Path) : List Text :=
  match d.read (p.child ".gitignore".toList) with
  | .ok bytes => match Text.decode? bytes with
    | some t => Text.fileLines t
    | none => []
  | .error _ => []

/-- A folder with an ignore file that can be read but holds no text. -/
structure Garbled (d : Disk) (p : Path) : Prop where
  folder : d.status p = .ok (some .folder)
  noText : ∃ bytes, d.read (p.child ".gitignore".toList) = .ok bytes ∧ Text.decode? bytes = none

/-- A folder whose ignore file, if there is one that can be read, holds text. -/
structure Legible (d : Disk) (p : Path) : Prop where
  folder : d.status p = .ok (some .folder)
  told : ∃ item, d.status (p.child ".gitignore".toList) = .ok item
  text {bytes : Bytes} (read : d.read (p.child ".gitignore".toList) = .ok bytes) :
    Text.decode? bytes ≠ none

/-- The rules for the walk of a folder. -/
structure Governs (reader : IgnoreReader) (skipped : List Text) (p : Path) (w : Rules d) : Prop where
  root : w.root = p
  skipped : w.skipped = skipped
  heeds : reader (linesIn d p) = .ok w.ignored

/-- The files to which a path comes down: a folder to the sources that its walk comes across, anything
else, whether it exists or not, to itself. -/
inductive Yields (reader : IgnoreReader) (d : Disk) (skipped : List Text) (p : Path) :
    List Path → Prop
  | itself {item : Option Item} (leads : d.status p = .ok item) (alone : item ≠ some .folder) :
      Yields reader d skipped p [p]
  | walked {w : Rules d} {seen : List Sighting} (legible : Legible d p)
      (governs : Governs reader skipped p w) (walks : walk w [] = .ok seen) :
      Yields reader d skipped p (sources seen)

/-- What stops a search at one of its paths. -/
inductive Halts (reader : IgnoreReader) (d : Disk) (skipped : List Text) (p : Path) : Stop → Prop
  | untold {why : Refusal} (untold : d.status p = .error why) : Halts reader d skipped p (.refused p why)
  | unasked {why : Refusal} (folder : d.status p = .ok (some .folder))
      (unasked : d.status (p.child ".gitignore".toList) = .error why) :
      Halts reader d skipped p (.refused (p.child ".gitignore".toList) why)
  | garbled (garbled : Garbled d p) : Halts reader d skipped p .undecodableIgnoreFile
  | strange {message : Text} (legible : Legible d p) (strange : reader (linesIn d p) = .error message) :
      Halts reader d skipped p (.strangeIgnoreFile message)
  | adrift {ignored : List Text → Bool} {why : Unsettled} (legible : Legible d p)
      (heeds : reader (linesIn d p) = .ok ignored) (adrift : d.resolve p = .error why) :
      Halts reader d skipped p (.unsettled why)
  | stopped {w : Rules d} {stop : Stop} (legible : Legible d p) (governs : Governs reader skipped p w)
      (stopped : walk w [] = .error stop) : Halts reader d skipped p stop
  | unsettled {files front back : List Path} {q : Path} {why : Unsettled}
      (yields : Yields reader d skipped p files) (split : files = front ++ q :: back)
      (before : ∀ r ∈ front, ∃ place, d.resolve r = .ok place)
      (unsettled : d.resolve q = .error why) : Halts reader d skipped p (.unsettled why)

/-- The files that a path stands for, all of which can be compared by place. -/
structure StandsFor (reader : IgnoreReader) (d : Disk) (skipped : List Text) (p : Path)
    (files : List Path) : Prop where
  yields : Yields reader d skipped p files
  settled : ∀ q ∈ files, ∃ place, d.resolve q = .ok place

variable {reader : IgnoreReader} {d : Disk} {skipped : List Text} {p : Path} {w : Rules d}
  {paths files : List Path} {stop : Stop} {why : Refusal}

section IgnoreFile

theorem ignoreLines_of_unasked (unasked : d.status (p.child ".gitignore".toList) = .error why) :
    ignoreLines d p = .error (.refused (p.child ".gitignore".toList) why) := by
  rw [ignoreLines, unasked]

theorem ignoreLines_of_garbled (garbled : Garbled d p) :
    ignoreLines d p = .error .undecodableIgnoreFile := by
  obtain ⟨-, bytes, read, noText⟩ := garbled
  rw [ignoreLines, status_of_read read]
  dsimp only
  rw [read]
  dsimp only
  rw [noText]

theorem ignoreLines_of_legible (legible : Legible d p) : ignoreLines d p = .ok (linesIn d p) := by
  obtain ⟨-, ⟨item, told⟩, text⟩ := legible
  rw [ignoreLines, linesIn, told]
  cases read : d.read (p.child ".gitignore".toList) with
  | ok bytes =>
    cases told.symm.trans (status_of_read read)
    obtain ⟨t, decoded⟩ := Option.ne_none_iff_exists'.mp (text read)
    dsimp only
    rw [decoded]
  | error trouble =>
    match item with
    | none => rfl
    | some .folder => rfl
    | some (.file bytes) => rfl
    | some (.link target) => rfl

/-- The test of an ignore file is refused, or it is garbled, or it can be heeded. -/
theorem ignoreFile_cases (folder : d.status p = .ok (some .folder)) :
    (∃ why, d.status (p.child ".gitignore".toList) = .error why) ∨ Garbled d p ∨ Legible d p := by
  cases told : d.status (p.child ".gitignore".toList) with
  | error why => exact .inl ⟨why, rfl⟩
  | ok item =>
    by_cases noText : ∃ bytes, d.read (p.child ".gitignore".toList) = .ok bytes ∧
      Text.decode? bytes = none
    · exact .inr (.inl ⟨folder, noText⟩)
    · exact .inr (.inr ⟨folder, ⟨item, told⟩, fun read none => noText ⟨_, read, none⟩⟩)

end IgnoreFile

section Rules

theorem rulesFor_of_strange {message : Text} (legible : Legible d p)
    (strange : reader (linesIn d p) = .error message) :
    rulesFor reader d skipped p = .error (.strangeIgnoreFile message) := by
  rw [rulesFor, ignoreLines_of_legible legible]
  dsimp only
  rw [strange]

theorem rulesFor_of_adrift {ignored : List Text → Bool} {why : Unsettled} (legible : Legible d p)
    (heeds : reader (linesIn d p) = .ok ignored) (adrift : d.resolve p = .error why) :
    rulesFor reader d skipped p = .error (.unsettled why) := by
  rw [rulesFor, ignoreLines_of_legible legible]
  dsimp only
  rw [heeds]
  dsimp only
  split
  · rename_i other unsettled
    cases adrift.symm.trans unsettled
    rfl
  · rename_i settled
    cases adrift.symm.trans settled

theorem rulesFor_of_legible (skipped : List Text) (legible : Legible d p)
    {ignored : List Text → Bool} {place : Location} (heeds : reader (linesIn d p) = .ok ignored)
    (settled : d.resolve p = .ok place) :
    ∃ w, rulesFor reader d skipped p = .ok w ∧ Governs reader skipped p w := by
  rw [rulesFor, ignoreLines_of_legible legible]
  dsimp only
  rw [heeds]
  dsimp only
  split
  · rename_i unsettled
    cases settled.symm.trans unsettled
  · exact ⟨_, rfl, rfl, rfl, heeds⟩

theorem Governs.unique {other : Rules d} (governs : Governs reader skipped p w)
    (again : Governs reader skipped p other) : w = other := by
  obtain ⟨root, bound, settled, skips, ignored⟩ := w
  obtain ⟨root', bound', settled', skips', ignored'⟩ := other
  obtain ⟨rfl, rfl, heeds⟩ := governs
  obtain ⟨rfl, rfl, heeds'⟩ := again
  cases settled.symm.trans settled'
  cases heeds.symm.trans heeds'
  rfl

theorem rulesFor_of_governs (legible : Legible d p) (governs : Governs reader skipped p w) :
    rulesFor reader d skipped p = .ok w := by
  have settled : d.resolve p = .ok w.bound := governs.root ▸ w.settled
  obtain ⟨other, rules, again⟩ := rulesFor_of_legible skipped legible governs.heeds settled
  rw [rules, governs.unique again]

end Rules

theorem unsettled?_eq_none_iff : d.unsettled? p = none ↔ ∃ place, d.resolve p = .ok place := by
  unfold Disk.unsettled?
  cases d.resolve p <;> simp

theorem unsettled?_eq_some_iff {why : Unsettled} :
    d.unsettled? p = some why ↔ d.resolve p = .error why := by
  unfold Disk.unsettled?
  cases d.resolve p <;> simp

section Candidates

theorem expand_of_folder (folder : d.status p = .ok (some .folder)) :
    expand reader d skipped p = match rulesFor reader d skipped p with
      | .error stop => .error stop
      | .ok w => match walk w [] with
        | .error stop => .error stop
        | .ok seen => .ok (sources seen, seen.filterMap Sighting.notice?) := by
  rw [expand, folder]
  rfl

theorem expand_of_yields (yields : Yields reader d skipped p files) :
    ∃ notices, expand reader d skipped p = .ok (files, notices) := by
  cases yields with
  | @itself item leads alone =>
    rw [expand, leads]
    match item with
    | none => exact ⟨_, rfl⟩
    | some .folder => exact (alone rfl).elim
    | some (.file bytes) => exact ⟨_, rfl⟩
    | some (.link target) => exact ⟨_, rfl⟩
  | walked legible governs walks =>
    rw [expand_of_folder legible.folder, rulesFor_of_governs legible governs]
    dsimp only
    rw [walks]
    exact ⟨_, rfl⟩

theorem candidates_of_error (stopped : expand reader d skipped p = .error stop) :
    candidates reader d skipped p = .error stop := by
  rw [candidates, stopped]

theorem candidates_of_halts (halts : Halts reader d skipped p stop) :
    candidates reader d skipped p = .error stop := by
  cases halts with
  | untold untold => exact candidates_of_error (by rw [expand, untold])
  | unasked folder unasked =>
    refine candidates_of_error ?_
    rw [expand_of_folder folder, rulesFor, ignoreLines_of_unasked unasked]
  | garbled garbled =>
    refine candidates_of_error ?_
    rw [expand_of_folder garbled.folder, rulesFor, ignoreLines_of_garbled garbled]
  | strange legible strange =>
    refine candidates_of_error ?_
    rw [expand_of_folder legible.folder, rulesFor_of_strange legible strange]
  | adrift legible heeds adrift =>
    refine candidates_of_error ?_
    rw [expand_of_folder legible.folder, rulesFor_of_adrift legible heeds adrift]
  | stopped legible governs stopped =>
    refine candidates_of_error ?_
    rw [expand_of_folder legible.folder, rulesFor_of_governs legible governs]
    dsimp only
    rw [stopped]
  | @unsettled files front back q why yields split before unsettled =>
    obtain ⟨notices, expanded⟩ := expand_of_yields yields
    have first : files.findSome? d.unsettled? = some why :=
      List.findSome?_eq_some_iff.mpr ⟨front, q, back, split, unsettled?_eq_some_iff.mpr unsettled,
        fun r early => unsettled?_eq_none_iff.mpr (before r early)⟩
    rw [candidates, expanded]
    dsimp only
    rw [first]

theorem candidates_of_standsFor (stands : StandsFor reader d skipped p files) :
    ∃ notices, candidates reader d skipped p = .ok (files, notices) := by
  obtain ⟨notices, expanded⟩ := expand_of_yields stands.yields
  have fine : files.findSome? d.unsettled? = none :=
    List.findSome?_eq_none_iff.mpr fun q listed => unsettled?_eq_none_iff.mpr (stands.settled q listed)
  rw [candidates, expanded]
  dsimp only
  rw [fine]
  exact ⟨notices, rfl⟩

/-- A path stops the search or comes down to some files. -/
theorem halts_or_yields (reader : IgnoreReader) (d : Disk) (skipped : List Text) (p : Path) :
    (∃ stop, Halts reader d skipped p stop) ∨ ∃ files, Yields reader d skipped p files := by
  cases leads : d.status p with
  | error why => exact .inl ⟨_, .untold leads⟩
  | ok item =>
    by_cases folder : item = some .folder
    · subst folder
      rcases ignoreFile_cases leads with ⟨why, unasked⟩ | garbled | legible
      · exact .inl ⟨_, .unasked leads unasked⟩
      · exact .inl ⟨_, .garbled garbled⟩
      · cases heeds : reader (linesIn d p) with
        | error message => exact .inl ⟨_, .strange legible heeds⟩
        | ok ignored =>
          cases settled : d.resolve p with
          | error why => exact .inl ⟨_, .adrift legible heeds settled⟩
          | ok place =>
            obtain ⟨w, -, governs⟩ := rulesFor_of_legible skipped legible heeds settled
            cases walks : walk w [] with
            | error stop => exact .inl ⟨_, .stopped legible governs walks⟩
            | ok seen => exact .inr ⟨_, .walked legible governs walks⟩
    · exact .inr ⟨_, .itself leads folder⟩

/-- A path stops the search or stands for some files. -/
theorem halts_or_standsFor (reader : IgnoreReader) (d : Disk) (skipped : List Text) (p : Path) :
    (∃ stop, Halts reader d skipped p stop) ∨ ∃ files, StandsFor reader d skipped p files := by
  rcases halts_or_yields reader d skipped p with halts | ⟨files, yields⟩
  · exact .inl halts
  · cases first : files.findSome? d.unsettled? with
    | none =>
      refine .inr ⟨files, yields, fun q listed => ?_⟩
      exact unsettled?_eq_none_iff.mp (List.findSome?_eq_none_iff.mp first q listed)
    | some why =>
      obtain ⟨front, q, back, split, unsettled, before⟩ := List.findSome?_eq_some_iff.mp first
      exact .inl ⟨_, .unsettled yields split
        (fun r early => unsettled?_eq_none_iff.mp (before r early))
        (unsettled?_eq_some_iff.mp unsettled)⟩

theorem candidates_eq_error_iff :
    candidates reader d skipped p = .error stop ↔ Halts reader d skipped p stop := by
  refine ⟨fun stopped => ?_, candidates_of_halts⟩
  rcases halts_or_standsFor reader d skipped p with ⟨other, halts⟩ | ⟨files, stands⟩
  · cases stopped.symm.trans (candidates_of_halts halts)
    exact halts
  · obtain ⟨notices, returned⟩ := candidates_of_standsFor stands
    cases stopped.symm.trans returned

theorem exists_candidates_iff :
    (∃ notices, candidates reader d skipped p = .ok (files, notices)) ↔
      StandsFor reader d skipped p files := by
  refine ⟨fun ⟨notices, returned⟩ => ?_, candidates_of_standsFor⟩
  rcases halts_or_standsFor reader d skipped p with ⟨stop, halts⟩ | ⟨others, stands⟩
  · cases returned.symm.trans (candidates_of_halts halts)
  · obtain ⟨again, same⟩ := candidates_of_standsFor stands
    cases returned.symm.trans same
    exact stands

theorem StandsFor.not_halts (stands : StandsFor reader d skipped p files) (stop : Stop) :
    ¬ Halts reader d skipped p stop := fun halts => by
  obtain ⟨notices, returned⟩ := candidates_of_standsFor stands
  cases returned.symm.trans (candidates_of_halts halts)

end Candidates

section Paths

theorem expandAll_eq (reader : IgnoreReader) (d : Disk) (skipped : List Text) (paths : List Path) :
    expandAll reader d skipped paths = (paths.mapM (candidates reader d skipped)).map fun each =>
      (each.flatMap Prod.fst, each.flatMap Prod.snd) := by
  induction paths with
  | nil => rfl
  | cons first rest ih =>
    rw [expandAll, List.mapM_cons, ih]
    cases candidates reader d skipped first with
    | error stop => rfl
    | ok expansion =>
      cases rest.mapM (candidates reader d skipped) with
      | error stop => rfl
      | ok each => rfl

/-- A search is stopped by the first of its paths that stops it. -/
theorem discover_eq_error_iff :
    discover reader d skipped paths = .error stop ↔ ∃ front p back, paths = front ++ p :: back ∧
      Halts reader d skipped p stop ∧ ∀ q ∈ front, ∀ other, ¬ Halts reader d skipped q other := by
  have carries : discover reader d skipped paths = .error stop ↔
      paths.mapM (candidates reader d skipped) = .error stop := by
    rw [discover, expandAll_eq]
    cases paths.mapM (candidates reader d skipped) <;> simp [Except.map]
  have clear_iff {q : Path} : (∃ expansion, candidates reader d skipped q = .ok expansion) ↔
      ∀ other, ¬ Halts reader d skipped q other := by
    simp only [← candidates_eq_error_iff]
    cases candidates reader d skipped q <;> simp
  rw [carries, mapM_eq_error_iff]
  simp only [candidates_eq_error_iff, clear_iff]

theorem exists_expansions {files : List (List Path)}
    (stands : List.Forall₂ (StandsFor reader d skipped) paths files) :
    ∃ each, paths.mapM (candidates reader d skipped) = .ok each ∧ each.map Prod.fst = files := by
  induction stands with
  | nil => exact ⟨[], rfl, rfl⟩
  | @cons p files rest others here _ ih =>
    obtain ⟨notices, returned⟩ := candidates_of_standsFor here
    obtain ⟨each, run, rfl⟩ := ih
    refine ⟨(files, notices) :: each, ?_, rfl⟩
    rw [List.mapM_cons, returned, run]
    rfl

/-- A search returns the first path to each place to which the files lead that its paths stand for. -/
theorem exists_discover_iff {found : List Path} :
    (∃ notices, discover reader d skipped paths = .ok (found, notices)) ↔
      ∃ files, List.Forall₂ (StandsFor reader d skipped) paths files ∧
        found = firstOfEach d [] files.flatten := by
  constructor
  · intro h
    obtain ⟨notices, returned⟩ := h
    rw [discover, expandAll_eq] at returned
    cases run : paths.mapM (candidates reader d skipped) with
    | error stop =>
      rw [run] at returned
      cases returned
    | ok each =>
      rw [run] at returned
      cases returned
      refine ⟨each.map Prod.fst, List.forall₂_map_right_iff.mpr ?_, rfl⟩
      exact (mapM_eq_ok_iff_forall₂.mp run).imp fun p expansion expanded =>
        exists_candidates_iff.mp ⟨_, expanded⟩
  · intro h
    obtain ⟨files, stands, rfl⟩ := h
    obtain ⟨each, run, rfl⟩ := exists_expansions stands
    rw [discover, expandAll_eq, run]
    exact ⟨_, rfl⟩

theorem discover_returns_iff :
    (∃ outcome, discover reader d skipped paths = .ok outcome) ↔
      ∀ p ∈ paths, ∀ stop, ¬ Halts reader d skipped p stop := by
  constructor
  · intro h p listed stop halts
    obtain ⟨⟨found, notices⟩, returned⟩ := h
    obtain ⟨files, stands, -⟩ := exists_discover_iff.mp ⟨notices, returned⟩
    obtain ⟨_, -, stands⟩ := exists_right_of_matching stands listed
    exact stands.not_halts stop halts
  · intro clear
    cases run : discover reader d skipped paths with
    | ok outcome => exact ⟨outcome, rfl⟩
    | error stop =>
      obtain ⟨front, p, back, rfl, halts, -⟩ := discover_eq_error_iff.mp run
      exact (clear p (by simp) stop halts).elim

end Paths

/-- Whatever the disk, the paths and the reader of ignore files, a search is stopped by the first of
its paths that stops it, and returns if there is none. It has then found the first path to each place
to which the files lead that its paths stand for, and an ignore file that is absent or cannot be read
counts as empty. -/
theorem discover_stops_iff (reader : IgnoreReader) (d : Disk) (skipped : List Text)
    (paths : List Path) :
    (∀ stop, discover reader d skipped paths = .error stop ↔
      ∃ front p back, paths = front ++ p :: back ∧ Halts reader d skipped p stop ∧
        ∀ q ∈ front, ∀ other, ¬ Halts reader d skipped q other) ∧
    ((∃ outcome, discover reader d skipped paths = .ok outcome) ↔
      ∀ p ∈ paths, ∀ stop, ¬ Halts reader d skipped p stop) ∧
    ∀ found, (∃ notices, discover reader d skipped paths = .ok (found, notices)) ↔
      ∃ files, List.Forall₂ (StandsFor reader d skipped) paths files ∧
        found = firstOfEach d [] files.flatten :=
  ⟨fun _ => discover_eq_error_iff, discover_returns_iff, fun _ => exists_discover_iff⟩

/-- A folder with one source and an ignore file of one byte that is no text. -/
def spoiled : Disk where
  home := ["srv".toList]
  entries := [
    (["srv".toList], .folder),
    (["srv".toList, ".gitignore".toList], .file [0xFF]),
    (["srv".toList, "a.rb".toList], .file [])]

/-- However ignore files are read, one undecodable byte in the ignore file keeps the source of the
folder from being found. -/
theorem spoiled_not_discovered :
    ¬ ∃ reader found notices, discover reader spoiled [] [⟨0, []⟩] = .ok (found, notices) := by
  intro h
  obtain ⟨reader, found, notices, returned⟩ := h
  have garbled : Garbled spoiled ⟨0, []⟩ := ⟨by cbv, [0xFF], by cbv, by decide⟩
  have stopped : discover reader spoiled [] [⟨0, []⟩] = .error .undecodableIgnoreFile :=
    discover_eq_error_iff.mpr ⟨[], _, [], rfl, .garbled garbled, by simp⟩
  cases returned.symm.trans stopped

end PromptAudit.Discovery
