import PromptAudit.Notice
import PromptAudit.Storage.Locate
import PromptAudit.Text.Lines

namespace PromptAudit

/-- File names and extensions of Ruby sources. -/
def Path.isSource (p : Path) : Bool :=
  p.name = "Gemfile".toList || p.name = "Rakefile".toList ||
    [".rb", ".rake", ".gemspec", ".ru"].any (Text.lower p.suffix = ·.toList)

namespace Disk

variable (d : Disk)

/-- A zero byte near the start marks a binary file; what cannot be read counts as one. -/
def isBinary (p : Path) : Bool :=
  match d.read p with
  | .ok bytes => (bytes.take 8192).contains 0
  | .error _ => true

/-- The place by which a path is compared, if it has one. -/
def place? (p : Path) : Option Location := (d.resolve p).toOption

def unsettled? (p : Path) : Option Unsettled :=
  match d.resolve p with
  | .ok _ => none
  | .error why => some why

end Disk

namespace Discovery

/-- Makes a test of paths from the lines of an ignore file, or tells why it cannot. A path is given
by its names below the folder, with an empty one at the end of a folder's. -/
abbrev IgnoreReader := List Text → Except Text (List Text → Bool)

/-- What stops a search. -/
inductive Stop
  | undecodableIgnoreFile
  | strangeIgnoreFile (message : Text)
  | refused (path : Path) (why : Refusal)
  | unsettled (why : Unsettled)
  deriving DecidableEq, Repr

def Stop.message : Stop → Text
  | undecodableIgnoreFile => ".gitignore is not well-formed text".toList
  | strangeIgnoreFile message => message
  | refused path why => (Trouble.refused why).account path
  | unsettled why => why.message

/-- What a walk comes across. -/
inductive Sighting
  | source (path : Path)
  | outside (path : Path)
  | binary (path : Path)
  | unlisted (path : Path) (trouble : Trouble)
  deriving DecidableEq, Repr

namespace Sighting

def source? : Sighting → Option Path
  | source path => some path
  | _ => none

def notice? : Sighting → Option Notice
  | source _ => none
  | outside path => some (.outsideLink path.toText)
  | binary path => some (.binaryFile path.toText)
  | unlisted path trouble => some (.unlistedFolder path.toText (trouble.account path))

end Sighting

/-- What a walk of a disk goes by: where it starts, that place settled, the names of folders it
skips, and the ignored paths. -/
structure Rules (d : Disk) where
  root : Path
  bound : Location
  settled : d.resolve root = .ok bound
  skipped : List Text
  ignored : List Text → Bool

variable {d : Disk}

def Rules.path (w : Rules d) (below : List Text) : Path :=
  { w.root with names := w.root.names ++ below }

/-- Hidden, skipped and ignored folders are not entered. -/
def Rules.enters (w : Rules d) (below : List Text) (name : Text) : Bool :=
  name.head?.any (· ≠ '.') && !w.skipped.contains name && !w.ignored (below ++ [name, []])

/-- What a walk makes of a name: nothing, something to note, a folder to go on in, or its end. -/
inductive Turn
  | pass
  | note (s : Sighting)
  | enter
  | stop (s : Stop)
  deriving DecidableEq, Repr

/-- What a walk makes of the item to which a name leads. What is no source, or is ignored, is passed
over in silence. -/
def arrive (w : Rules d) (below : List Text) (name : Text) : Turn :=
  let path := w.path (below ++ [name])
  match d.status path with
  | .error why => .stop (.refused path why)
  | .ok (some .folder) => if w.enters below name then .enter else .pass
  | .ok (some (.file _)) =>
      if !path.isSource || w.ignored (below ++ [name]) then .pass
      else if d.isBinary path then .note (.binary path)
      else .note (.source path)
  | .ok _ => .pass

/-- What a walk makes of a name that a folder lists. A link is followed only if it stays within the
root. -/
def turn (w : Rules d) (below : List Text) (name : Text) : Turn :=
  let path := w.path (below ++ [name])
  match d.ownStatus path with
  | .error why => .stop (.refused path why)
  | .ok (some (.link _)) => match d.resolve path with
    | .error why => .stop (.unsettled why)
    | .ok place => if w.bound.isPrefixOf place then arrive w below name else .note (.outside path)
  | .ok _ => arrive w below name

section Enter

variable {w : Rules d} {below : List Text} {name : Text}

theorem path_concat (w : Rules d) (below : List Text) (name : Text) :
    w.path (below ++ [name]) = (w.path below).child name := by
  rw [Rules.path, Rules.path, Path.child, List.append_assoc]

/-- Neither a dot nor two of them are the name of a folder that is entered. -/
theorem proper_of_enters (enters : w.enters below name = true) : Disk.IsProper name := by
  refine ⟨Bool.eq_false_iff.mpr fun dotted => ?_, ?_⟩
  · have shapes : name = [] ∨ name = ['.'] := by simpa [Disk.isDot] using dotted
    rcases shapes with rfl | rfl <;> simp [Rules.enters] at enters
  · rintro rfl
    simp [Rules.enters, Disk.up] at enters

theorem arrive_eq_enter_iff :
    arrive w below name = .enter ↔
      d.status (w.path (below ++ [name])) = .ok (some .folder) ∧ w.enters below name = true := by
  unfold arrive
  dsimp only
  split
  · simp_all
  · simp_all
  · split
    · simp_all
    · split <;> simp_all
  · simp_all

theorem arrive_of_turn_enter (turns : turn w below name = .enter) :
    arrive w below name = .enter := by
  unfold turn at turns
  dsimp only at turns
  split at turns
  · cases turns
  · split at turns
    · cases turns
    · split at turns
      · exact turns
      · cases turns
  · exact turns

theorem reserve_lt_of_turn (turns : turn w below name = .enter) :
    d.reserve Disk.linkLimit (w.path (below ++ [name])) <
      d.reserve Disk.linkLimit (w.path below) := by
  obtain ⟨folder, enters⟩ := arrive_eq_enter_iff.mp (arrive_of_turn_enter turns)
  rw [path_concat] at folder ⊢
  exact Disk.reserve_child_lt (proper_of_enters enters) (Disk.opensWithin_of_status folder)

end Enter

/-- Walks a folder in the order of names. The first name that is not to be passed stops the walk. -/
def walk (w : Rules d) (below : List Text) : Except Stop (List Sighting) :=
  match d.listing (w.path below) with
  | .error trouble => .ok [.unlisted (w.path below) trouble]
  | .ok names =>
      let walks : Except Stop (List (List Sighting)) := names.mapM fun name =>
        match _turns : turn w below name with
        | .pass => .ok []
        | .note s => .ok [s]
        | .enter => walk w (below ++ [name])
        | .stop stop => .error stop
      walks.map List.flatten
termination_by d.reserve Disk.linkLimit (w.path below)
decreasing_by exact reserve_lt_of_turn _turns

/-- The lines of a folder's ignore file; there are none without a file that can be read. -/
def ignoreLines (d : Disk) (root : Path) : Except Stop (List Text) :=
  let path := root.child ".gitignore".toList
  match d.status path with
  | .error why => .error (.refused path why)
  | .ok (some (.file _)) => match d.read path with
    | .error _ => .ok []
    | .ok bytes => match Text.decode? bytes with
      | none => .error .undecodableIgnoreFile
      | some t => .ok (Text.fileLines t)
  | .ok _ => .ok []

def rulesFor (reader : IgnoreReader) (d : Disk) (skipped : List Text) (root : Path) :
    Except Stop (Rules d) :=
  match ignoreLines d root with
  | .error stop => .error stop
  | .ok lines => match reader lines with
    | .error message => .error (.strangeIgnoreFile message)
    | .ok ignored => match settled : d.resolve root with
      | .error why => .error (.unsettled why)
      | .ok bound => .ok { root, bound, settled, skipped, ignored }

/-- What a path stands for, and what is told on the way. A path that is named stands for itself,
whether or not it exists, unless it is a folder's. -/
def expand (reader : IgnoreReader) (d : Disk) (skipped : List Text) (p : Path) :
    Except Stop (List Path × List Notice) :=
  match d.status p with
  | .error why => .error (.refused p why)
  | .ok (some .folder) => match rulesFor reader d skipped p with
    | .error stop => .error stop
    | .ok w => match walk w [] with
      | .error stop => .error stop
      | .ok seen => .ok (seen.filterMap Sighting.source?, seen.filterMap Sighting.notice?)
  | .ok item => .ok ([p], if item.isSome then [] else [.missingPath p.toText])

/-- What a path stands for, all of which can be compared by place. -/
def candidates (reader : IgnoreReader) (d : Disk) (skipped : List Text) (p : Path) :
    Except Stop (List Path × List Notice) :=
  match expand reader d skipped p with
  | .error stop => .error stop
  | .ok (paths, notices) => match paths.findSome? d.unsettled? with
    | some why => .error (.unsettled why)
    | none => .ok (paths, notices)

/-- The first path to each place. -/
def firstOfEach (d : Disk) : List (Option Location) → List Path → List Path
  | _, [] => []
  | seen, p :: rest =>
      if seen.contains (d.place? p) then firstOfEach d seen rest
      else p :: firstOfEach d (d.place? p :: seen) rest

def expandAll (reader : IgnoreReader) (d : Disk) (skipped : List Text) :
    List Path → Except Stop (List Path × List Notice)
  | [] => .ok ([], [])
  | p :: rest =>
      match candidates reader d skipped p with
      | .error stop => .error stop
      | .ok (paths, notices) => match expandAll reader d skipped rest with
        | .error stop => .error stop
        | .ok (more, others) => .ok (paths ++ more, notices ++ others)

/-- The files to analyze, in a stable order and each once. -/
def discover (reader : IgnoreReader) (d : Disk) (skipped : List Text) (paths : List Path) :
    Except Stop (List Path × List Notice) :=
  match expandAll reader d skipped paths with
  | .error stop => .error stop
  | .ok (all, notices) =>
      let found := firstOfEach d [] all
      .ok (found, notices ++ [.discovered found.length])

end Discovery

end PromptAudit
