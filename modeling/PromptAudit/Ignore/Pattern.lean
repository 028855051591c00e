import PromptAudit.Ignore.Glob
import PromptAudit.Text.Quoted

namespace PromptAudit.Ignore

/-- A pattern part between slashes: any number of names, one name, or the names that fit. -/
inductive Segment
  | anyDepth
  | anyName
  | name (marks : List Mark)
  deriving DecidableEq, Repr

def Segment.ofText? (t : Text) : Option Segment :=
  if t = "**".toList then some .anyDepth
  else if t = "*".toList then some .anyName
  else (marks? 0 t).map .name

/-- What a line of an ignore file says of paths. -/
structure Pattern where
  negated : Bool
  segments : List Segment
  deriving DecidableEq, Repr

/-- Two of these in a row say no more than one. -/
def collapse : List Segment → List Segment
  | .anyDepth :: .anyDepth :: rest => collapse (.anyDepth :: rest)
  | s :: rest => s :: collapse rest
  | [] => []

/-- The segments of a pattern. A slash at its start or inside ties it to the root, one at its end
limits it to what lies below a folder. A lone slash stands for everything. -/
def segmentsOf? (t : Text) : Option (List Segment) := do
  let parts := Text.pieces (· = '/') t
  let folderOnly := t ≠ ['/'] && parts.getLast?.any List.isEmpty
  let tied := match parts with
    | [] :: rest => rest
    | [one] => ["**".toList, one]
    | [one, []] => ["**".toList, one, []]
    | parts => parts
  let closed := if tied.getLast?.any List.isEmpty then tied.dropLast ++ ["**".toList] else tied
  match collapse (← closed.mapM Segment.ofText?) with
  | [.anyDepth] => some (if folderOnly then [.anyDepth, .anyName, .anyDepth] else [.anyDepth])
  | segments => some segments

/-- A line without its trailing white space. Blank lines and comments say nothing, and some lines are
no patterns. -/
def Pattern.ofLine (line : Text) : Except Text (Option Pattern) :=
  let pattern (negated : Bool) (t : Text) : Except Text (Option Pattern) :=
    match segmentsOf? t with
    | some segments => .ok (some ⟨negated, segments⟩)
    | none => .error ("Invalid git pattern: ".toList ++ Text.quoted line)
  let t := if ['\\', ' '].isSuffixOf line then line else Text.trimRight line
  match t with
  | [] => .ok none
  | '#' :: _ => .ok none
  | ['!'] => .ok none
  | '!' :: r => pattern true r
  | t => pattern false t

/-- Do the segments fit the start of a path? What they leave must lie below what they fit, and
any depth at the end asks for something below. -/
def covers : List Segment → List Text → Bool
  | [], _ => true
  | [.anyDepth], names => !names.isEmpty
  | .anyDepth :: rest, [] => covers rest []
  | .anyDepth :: rest, name :: names => covers rest (name :: names) || covers (.anyDepth :: rest) names
  | _ :: _, [] => false
  | .anyName :: rest, name :: names => !name.isEmpty && covers rest names
  | .name ms :: rest, name :: names => fits ms name && covers rest names
termination_by segments names => (segments.length, names.length)

/-- A path is given by its names, with an empty one at the end of a folder's. -/
def Pattern.fits (p : Pattern) (names : List Text) : Bool := covers p.segments names

/-- The last pattern that fits a path decides. -/
def ignores (patterns : List Pattern) (names : List Text) : Bool :=
  ((patterns.filter (·.fits names)).getLast?).any fun p => !p.negated

/-- Reads the lines of an ignore file, unless one of them is refused. -/
def reader (lines : List Text) : Except Text (List Text → Bool) := do
  let patterns ← lines.mapM Pattern.ofLine
  return ignores (patterns.filterMap id)

end PromptAudit.Ignore
