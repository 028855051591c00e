import PromptAudit.Wording.Fragment
import PromptAudit.Text.Lines

namespace PromptAudit.Wording

/-- A part of a heredoc body. Only verbatim text has lines and indentation of its own. -/
inductive Piece
  | verbatim (text : Text)
  | decoded (text : Text)
  | live (source : Text)
  deriving DecidableEq, Repr

abbrev Line := List Piece

namespace Piece

def text : Piece → Text
  | verbatim t => t
  | decoded t => t
  | live s => s

/-- Cuts verbatim text after each line feed. -/
def breakLines : Piece → List Piece
  | verbatim t => (Text.feedLines t).map verbatim
  | p => [p]

def endsLine : Piece → Bool
  | verbatim t => t.getLast? = some '\n'
  | _ => false

/-- Verbatim text that shows nothing. -/
def isBlank : Piece → Bool
  | verbatim t => Text.blank t
  | _ => false

end Piece

/-- The line feed that ends the opening line is not part of the body. -/
def dropFirstFeed : List Piece → List Piece
  | .verbatim ('\n' :: t) :: rest => .verbatim t :: rest
  | pieces => pieces

/-- A line ends after the piece that ends it. -/
def gather : List Piece → List Line
  | [] => []
  | p :: rest =>
      if p.endsLine then [p] :: gather rest
      else match gather rest with
        | [] => [[p]]
        | line :: lines => (p :: line) :: lines

def splitLines (pieces : List Piece) : List Line := gather (pieces.flatMap Piece.breakLines)

/-- The indentation of the terminator: blank, and without a line feed. -/
def isTerminatorIndent (line : Line) : Bool := line.all fun p => p.isBlank && !p.endsLine

def dropTerminator (lines : List Line) : List Line :=
  if lines.getLast?.any isTerminatorIndent then lines.dropLast else lines

def isBlankLine (line : Line) : Bool := line.all Piece.isBlank

def isIndent (c : Char) : Bool := c = ' ' || c = '\t'

/-- Leading spaces and tabs of a text. -/
def lead (t : Text) : Nat := (t.takeWhile isIndent).length

/-- Indentation ends at the first other character and at the first piece that is not verbatim. -/
def indent : Line → Nat
  | .verbatim t :: rest => if lead t = t.length then lead t + indent rest else lead t
  | _ => 0

/-- Takes up to `margin` characters of indentation off a line. -/
def outdent (margin : Nat) : Line → Line
  | .verbatim t :: rest =>
      let taken := min margin (lead t)
      .verbatim (t.drop taken) :: if lead t = t.length then outdent (margin - taken) rest else rest
  | line => line

/-- The least indentation of the lines that are not blank. -/
def margin (lines : List Line) : Nat :=
  (((lines.filter fun line => !isBlankLine line).map indent).min?).getD 0

def dedent (lines : List Line) : List Line := lines.map (outdent (margin lines))

/-- Joins fixed texts that touch and leaves out empty ones. -/
def merge : List Piece → Wording
  | [] => []
  | .live s :: rest => .live s :: merge rest
  | .verbatim t :: rest | .decoded t :: rest =>
      if t.isEmpty then merge rest
      else match merge rest with
        | .fixed u :: more => .fixed (t ++ u) :: more
        | more => .fixed t :: more

/-- A heredoc body as it stands in the program: without the first line feed, without the
terminator's indentation, and with `squiggly` also without the common indentation. -/
def ofHeredoc (squiggly : Bool) (pieces : List Piece) : Wording :=
  let lines := dropTerminator (splitLines (dropFirstFeed pieces))
  merge (if squiggly then dedent lines else lines).flatten

end PromptAudit.Wording
