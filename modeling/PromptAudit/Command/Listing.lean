import PromptAudit.Command.Run

namespace PromptAudit.Command

/-- What a front end, which has looked at the disk and parsed the units on it, tells of a
workspace: the workspace and the time, as logs and reports write it. -/
structure Listing where
  workspace : Audit.Workspace := .empty
  stamp : Text := []
  time : Text := []

namespace Listing

/-- A line of a listing. Words stand between single spaces, and free text is written as the
hexadecimal digits of its bytes. -/
inductive Line
  | clock (stamp time : Text)
  | folder (path : Path)
  | link (path : Path) (target : Text)
  | unit (path : Path) (bytes : Bytes) (broken : Bool)
  | node (row : Tree.Row)

def bytes? : Text → Option Bytes
  | [] => some []
  | [_] => none
  | a :: b :: r => match Number.digitsValue? 16 [a, b], bytes? r with
    | some n, some bytes => some (n.toUInt8 :: bytes)
    | _, _ => none

def text? (word : Text) : Option Text := (bytes? word).map Text.decode

def path? (word : Text) : Option Path := (text? word).map Path.ofText

def number? (word : Text) : Option Nat := Number.digitsValue? 10 word

/-- A single dash stands for nothing. -/
def optional? {α : Type} (read : Text → Option α) (word : Text) : Option (Option α) :=
  if word = ['-'] then some none else (read word).map some

def flag? (yes no : String) (word : Text) : Option Bool :=
  if word = yes.toList then some true else if word = no.toList then some false else none

def row? (type start stop parent field missing : Text) : Option Tree.Row := do
  let shape : Tree.Shape := {
    type := String.ofList type
    start := ← number? start
    stop := ← number? stop
    field := ← optional? (fun name => some (String.ofList name)) field
    missing := ← flag? "missing" "present" missing }
  some ⟨shape, ← optional? number? parent⟩

def line? (line : Text) : Option Line :=
  match (Text.pieces (· = ' ') line).map String.ofList with
  | ["clock", stamp, time] => do some (.clock (← text? stamp.toList) (← text? time.toList))
  | ["folder", path] => (path? path.toList).map .folder
  | ["link", path, target] => do some (.link (← path? path.toList) (← text? target.toList))
  | ["unit", path, bytes, broken] => do
      some (.unit (← path? path.toList) (← bytes? bytes.toList)
        (← flag? "broken" "understood" broken.toList))
  | ["node", type, start, stop, parent, field, missing] =>
      (row? type.toList start.toList stop.toList parent.toList field.toList missing.toList).map .node
  | _ => none

/-- Adds a line that is no node; `rows` are the nodes after it. -/
def add (l : Listing) (rows : List Tree.Row) : Line → Listing
  | .clock stamp time => { l with stamp, time }
  | .folder path => { l with workspace := l.workspace.put path .folder }
  | .link path target => { l with workspace := l.workspace.put path (.link target) }
  | .unit path bytes broken =>
      { l with workspace := l.workspace.putUnit path (.ofRows bytes rows broken) }
  | .node _ => l

/-- Adds lines from the last one to the first, so that each unit meets the nodes after it. -/
def ofLines : List Line → List Tree.Row → Listing
  | [], _ => {}
  | .node row :: before, rows => ofLines before (row :: rows)
  | line :: before, rows => (ofLines before []).add rows line

def ofText? (t : Text) : Option Listing :=
  ((Text.fileLines t).mapM line?).map fun lines => ofLines lines.reverse []

end Listing

end PromptAudit.Command
