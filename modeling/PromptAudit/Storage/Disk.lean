import PromptAudit.Storage.Path
import PromptAudit.Text.Decode
import PromptAudit.Text.Quoted

namespace PromptAudit

/-- The names that lead from the top to an entry of a disk, without links or dots. -/
abbrev Location := List Text

inductive Item
  | folder
  | file (bytes : Bytes)
  | link (target : Text)
  deriving DecidableEq, Repr

/-- Why a system does not let a program go a way that may well be there. -/
inductive Refusal
  | denied
  | tooLong
  | failed
  deriving DecidableEq, Repr

/-- Why a path leads nowhere. -/
inductive Trouble
  | missing
  | notFolder
  | isFolder
  | tooManyLinks
  | refused (why : Refusal)
  deriving DecidableEq, Repr

namespace Refusal

def number : Refusal → Nat
  | failed => 5
  | denied => 13
  | tooLong => 36

def message : Refusal → Text
  | failed => "Input/output error".toList
  | denied => "Permission denied".toList
  | tooLong => "File name too long".toList

end Refusal

namespace Trouble

def number : Trouble → Nat
  | missing => 2
  | notFolder => 20
  | isFolder => 21
  | tooManyLinks => 40
  | refused why => why.number

def message : Trouble → Text
  | missing => "No such file or directory".toList
  | notFolder => "Not a directory".toList
  | isFolder => "Is a directory".toList
  | tooManyLinks => "Too many levels of symbolic links".toList
  | refused why => why.message

/-- What is told of a trouble with a path. -/
def account (trouble : Trouble) (p : Path) : Text :=
  "[Errno ".toList ++ Text.ofNat trouble.number ++ "] ".toList ++ trouble.message ++ ": ".toList ++
    Text.quoted p.toText

end Trouble

/-- The longest name that can be looked up, in bytes. -/
def longestName : Nat := 255

/-- The longest path that can be followed, in bytes. -/
def longestPath : Nat := 4095

/-- What a system refuses: to look up a name in a folder, to follow a path, to list a folder or to
read a file. The limits on lengths stand where nothing else is said. -/
structure Refusals where
  lookUp : Location → Text → Option Refusal := fun _ name =>
    if longestName < (Text.encode name).length then some .tooLong else none
  path : Path → Option Refusal := fun p =>
    if longestPath < (Text.encode p.toText).length then some .tooLong else none
  content : Location → Option Refusal := fun _ => none

/-- Entries by their location, the location of the working folder, and what the system refuses. -/
structure Disk where
  home : Location
  entries : List (Location × Item)
  refuses : Refusals := {}

/-- Why there is no place that stands for a path in comparisons. Links that lead in a circle are
told by the path that they come to. -/
inductive Unsettled
  | loop (there : Path)
  | nullCharacter
  deriving DecidableEq, Repr

def Unsettled.message : Unsettled → Text
  | loop there => "Symlink loop from ".toList ++ Text.quoted there.toText
  | nullCharacter => "embedded null byte".toList

namespace Disk

variable (d : Disk)

/-- The top is a folder without an entry of its own. -/
def item? (place : Location) : Option Item :=
  if place.isEmpty then some .folder else d.entries.lookup place

/-- How long a location of an entry can be. -/
def depth : Nat := (d.entries.map (·.1.length)).foldr max 0

/-- Where a path starts from. -/
def base (p : Path) : Location := if p.slashes = 0 then d.home else []

/-- A single dot leads nowhere else but asks for a folder, and so does nothing between two slashes or
after the last one. -/
def isDot (name : Text) : Bool := name.isEmpty || name = ['.']

/-- Two dots lead up. -/
def up : Text := ['.', '.']

/-- Where a name leads that is taken as it is written. -/
def step (here : Location) (name : Text) : Location :=
  if isDot name then here else if name = up then here.dropLast else here ++ [name]

def targetNames (target : Text) : List Text := Text.pieces (· = '/') target

/-- Where a path leads that is taken as it is written. -/
def location (p : Path) : Location := p.names.foldl step (d.base p)

/-- Where names lead that are taken as they are written. Those with a slash in front start again at
the top. -/
def asWritten (there : Location) : List Text → Location
  | [] :: name :: rest => (name :: rest).foldl step []
  | names => names.foldl step there

/-- Where the target of a link starts from. -/
def targetBase (here : Location) (target : Text) : Location :=
  if target.head? = some '/' then [] else here

/-- Names in a folder, by code points. -/
def names (folder : Location) : List Text :=
  (d.entries.filterMap fun e =>
    if e.1.dropLast = folder then e.1.getLast? else none).mergeSort Text.notAfter

/-- Looks up a name in a folder. -/
def entry (here : Location) (name : Text) : Except Trouble Item :=
  match d.item? here with
  | none => .error .missing
  | some .folder =>
      if isDot name then .ok .folder
      else match d.refuses.lookUp here name with
        | some why => .error (.refused why)
        | none =>
            if name = up then .ok .folder
            else match d.item? (here ++ [name]) with
              | none => .error .missing
              | some item => .ok item
  | some _ => .error .notFolder

/-- Follows names and links from a folder to an entry. At most `links` links are followed; what
is left of them comes with the answer. -/
def locate (links : Nat) (here : Location) : List Text → Except Trouble (Location × Nat)
  | [] => .ok (here, links)
  | name :: rest => match d.entry here name with
      | .error trouble => .error trouble
      | .ok (.link target) => match links with
        | 0 => .error .tooManyLinks
        | left + 1 => locate left (targetBase here target) (targetNames target ++ rest)
      | .ok _ => locate links (step here name) rest
termination_by rest => (links, rest.length)

/-- The links that one path may lead through. -/
def linkLimit : Nat := 40

/-- Why a path is not even followed. A null character stands in no name of an entry. -/
def barred (p : Path) : Option Trouble :=
  if p.hasNull then some .missing else (d.refuses.path p).map .refused

def find (p : Path) : Except Trouble (Location × Nat) :=
  match d.barred p with
  | some trouble => .error trouble
  | none => d.locate linkLimit (d.base p) p.names

/-- The item to which a path leads. -/
def follow (p : Path) : Except Trouble Item :=
  match d.find p with
  | .error trouble => .error trouble
  | .ok (here, _) => match d.item? here with
    | some item => .ok item
    | none => .error .missing

/-- The item that stands at a path without null characters, though it may be a link that leads on. -/
def look (p : Path) : Except Trouble Item :=
  match d.refuses.path p, p.names.getLast? with
  | some why, _ => .error (.refused why)
  | none, none => d.follow p
  | none, some name => match d.locate linkLimit (d.base p) p.names.dropLast with
    | .error trouble => .error trouble
    | .ok (here, _) => d.entry here name

def peek (p : Path) : Except Trouble Item := if p.hasNull then .error .missing else d.look p

/-- What a test of a path makes of an item that was looked for. Any trouble means that there is
none, but a refusal is left to whom it may concern. -/
def tested : Except Trouble Item → Except Refusal (Option Item)
  | .ok item => .ok (some item)
  | .error (.refused why) => .error why
  | .error _ => .ok none

/-- What a path leads to, if anything. -/
def status (p : Path) : Except Refusal (Option Item) := tested (d.follow p)

/-- What stands at a path itself, if anything. -/
def ownStatus (p : Path) : Except Refusal (Option Item) := tested (d.peek p)

/-- The names that a folder lists. -/
def listing (p : Path) : Except Trouble (List Text) :=
  match d.find p with
  | .error trouble => .error trouble
  | .ok (here, _) => match d.item? here with
    | none => .error .missing
    | some .folder => match d.refuses.content here with
      | some why => .error (.refused why)
      | none => .ok (d.names here)
    | some _ => .error .notFolder

def read (p : Path) : Except Trouble Bytes :=
  match d.find p with
  | .error trouble => .error trouble
  | .ok (here, _) => match d.item? here with
    | some (.file bytes) => match d.refuses.content here with
      | some why => .error (.refused why)
      | none => .ok bytes
    | some .folder => .error .isFolder
    | _ => .error .missing

/-- The entry that stands at a path, and how the path is written: from the top, or so many folders up
from the working folder. -/
def spelling (p : Path) : Nat × Location :=
  (if p.slashes = 0 then 1 + min (p.names.takeWhile (· = up)).length d.home.length else 0,
    match d.locate linkLimit (d.base p) p.names.dropLast with
    | .ok (here, _) => here ++ [p.name]
    | .error _ => [])

/-- All ways to write the entries of the disk. -/
def spellings : List (Nat × Location) :=
  (List.range (d.home.length + 2)).flatMap fun form => d.entries.map fun e => (form, e.1)

theorem length_erase_lt {fresh : List (Nat × Location)} {link : Nat × Location}
    (listed : link ∈ fresh) : (fresh.erase link).length < fresh.length := by
  have some := List.length_pos_of_mem listed
  rw [List.length_erase_of_mem listed]
  omega

/-- A path written without links that leads where a path does, for all that can be told. Links on the
way are looked up one after the other, and what cannot be looked up is taken as it is written. One that
is not `fresh` is being settled and leads back to itself: it makes a loop, and all is taken as written
from there on. -/
def settle (fresh : List (Nat × Location)) (p : Path) : List Text → Except Location Path
  | [] => .ok p
  | name :: rest =>
      if isDot name then settle fresh p rest
      else if name = up then settle fresh p.up rest
      else match d.look (p.child name) with
        | .ok (.link target) =>
            let link := d.spelling (p.child name)
            if _fresh : link ∈ fresh then
              match settle (fresh.erase link) (p.toward target) (targetNames target) with
              | .error there => .error (asWritten there rest)
              | .ok q => settle fresh q rest
            else .error (asWritten (d.location (p.child name)) rest)
        | _ => settle fresh (p.child name) rest
termination_by rest => (fresh.length, rest.length)
decreasing_by
  · exact Prod.Lex.right _ (Nat.lt_succ_self _)
  · exact Prod.Lex.right _ (Nat.lt_succ_self _)
  · exact Prod.Lex.left _ _ (length_erase_lt _fresh)
  · exact Prod.Lex.right _ (Nat.lt_succ_self _)
  · exact Prod.Lex.right _ (Nat.lt_succ_self _)

/-- Where a path is taken to lead, be it in a circle. -/
def place (p : Path) : Location :=
  match d.settle d.spellings p.start p.names with
  | .ok q => d.location q
  | .error there => there

/-- The place that stands for a path when two paths are compared. Of a loop there is none, unless
the path comes out of it as it is written. -/
def resolve (p : Path) : Except Unsettled Location :=
  if p.hasNull then .error .nullCharacter
  else match d.find ⟨1, d.place p⟩ with
    | .error .tooManyLinks => .error (.loop ⟨1, d.place p⟩)
    | _ => .ok (d.place p)

/-- The disk with paths of any length. -/
def boundless : Disk := { d with refuses := { d.refuses with path := fun _ => none } }

/-- Where an item goes that is put under a path: a link stands at the path itself, anything else
where the path leads. -/
def placeFor (p : Path) : Item → Location
  | .link _ => d.boundless.place { p with names := p.names.dropLast } ++ [p.name]
  | _ => d.boundless.place p

/-- The folders above a place that are not there yet. -/
def missingAbove (place : Location) : List Location :=
  ((List.range place.length).map place.take).filter fun above => (d.item? above).isNone

/-- Puts an item under a path, with the folders above it. It takes the place of what stood there,
but a folder stays as it is when it is put a second time. -/
def put (p : Path) (item : Item) : Disk :=
  let place := d.placeFor p item
  if item = .folder && d.item? place = some .folder then d
  else { d with
    entries := d.entries.filter (·.1 ≠ place) ++ (d.missingAbove place).map (·, Item.folder) ++
      [(place, item)] }

/-- A disk that holds nothing but the working folder. -/
def empty : Disk :=
  let home := ["srv".toList, "work".toList]
  { home, entries := [(home.take 1, .folder), (home, .folder)] }

end Disk

end PromptAudit
