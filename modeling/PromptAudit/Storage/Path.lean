import PromptAudit.Text.Lower

namespace PromptAudit

/-- A path as written: how many slashes it starts with, one or two of which may matter, and its
names. A single dot is no name; two dots stay, for a link may stand before them. -/
structure Path where
  slashes : Nat
  names : List Text
  deriving DecidableEq, Repr

namespace Path

def isName (name : Text) : Bool := !name.isEmpty && name ≠ ['.']

def ofText (t : Text) : Path where
  slashes :=
    let leading := (t.takeWhile (· = '/')).length
    if leading = 2 then 2 else min leading 1
  names := (Text.pieces (· = '/') t).filter isName

def toText (p : Path) : Text :=
  if p.slashes = 0 && p.names.isEmpty then ['.']
  else List.replicate p.slashes '/' ++ Text.join ['/'] p.names

def child (p : Path) (name : Text) : Path := { p with names := p.names ++ [name] }

/-- The slash in front of a path, if there is one. -/
def start (p : Path) : Path := { slashes := min p.slashes 1, names := [] }

/-- Where the target of a link leads from that stands under a path. -/
def toward (p : Path) (target : Text) : Path :=
  if target.head? = some '/' then { slashes := 1, names := [] } else p

/-- One folder up. From the working folder, and from above it, two dots lead there. -/
def up (p : Path) : Path :=
  match p.names.getLast? with
  | none => if p.slashes = 0 then p.child ['.', '.'] else p
  | some last =>
      if last = ['.', '.'] then p.child ['.', '.'] else { p with names := p.names.dropLast }

def hasNull (p : Path) : Bool := p.names.any (·.contains '\x00')

/-- The last name. -/
def name (p : Path) : Text := p.names.getLast?.getD []

/-- From the last dot of a name on, unless that dot is its first or last character. -/
def suffix (p : Path) : Text :=
  let tail := p.name.reverse.takeWhile (· ≠ '.')
  if tail.isEmpty || p.name.length ≤ tail.length + 1 then [] else '.' :: tail.reverse

end Path

end PromptAudit
