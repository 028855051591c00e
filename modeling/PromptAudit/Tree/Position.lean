import PromptAudit.Tree.Basic

namespace PromptAudit

/-- Where a node lies. Lines count from one, columns and bytes from zero. -/
structure Span where
  startLine : Int
  startColumn : Int
  endLine : Int
  endColumn : Int
  startByte : Int
  endByte : Int
  deriving DecidableEq, Repr

namespace Tree

variable (t : Tree)

def lineFeed : UInt8 := 10

/-- Line feeds before an offset. -/
def row (offset : Nat) : Nat := (t.source.take offset).count lineFeed

/-- The offset just after the last line feed before an offset. -/
def lineStart (offset : Nat) : Nat :=
  ((t.source.take offset).reverse.dropWhile (· != lineFeed)).length

/-- Bytes from the start of the line. -/
def column (offset : Nat) : Nat := offset - t.lineStart offset

def lineBytes (offset : Nat) : Bytes :=
  (t.source.drop (t.lineStart offset)).takeWhile (· != lineFeed)

/-- The one line that holds an offset, without its end. -/
def lineAt (offset : Nat) : Text := Text.decode (t.lineBytes offset)

def span (i : Nat) : Span :=
  ⟨t.row (t.start i) + 1, t.column (t.start i), t.row (t.stop i) + 1, t.column (t.stop i),
    t.start i, t.stop i⟩

/-- The line of the first node that the parser could not read or only supposed, or else of the
whole unit. Nothing is reported for a unit that was understood. -/
def firstErrorLine : Option Nat :=
  if t.broken then
    let first := t.nodes.find? fun i => t.type i = "ERROR" || (t.entry i).shape.missing
    some (t.row (t.start (first.getD 0)) + 1)
  else none

end Tree

end PromptAudit
