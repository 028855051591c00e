import PromptAudit.Rule.Basic

namespace PromptAudit.Rule

/-- Trimmed lines that show something. -/
def visibleLines (content : Text) : List Text :=
  ((Text.pieces (· = '\n') (Text.readLineFeeds content)).map Text.trim).filter
    fun line => !line.isEmpty

/-- A third of the lines, rounded up, and two at least. -/
def edge (total : Nat) : Nat := max ((total + 2) / 3) 2

/-- A label `### text` stands outside the first and last thirds. Six lines have no middle. -/
def hasMiddleSection (content : Text) : Bool :=
  let lines := visibleLines content
  7 ≤ lines.length &&
    (lines.zipIdx.any fun (line, i) =>
      isHeaded "###".toList line && edge lines.length ≤ i && i < lines.length - edge lines.length)

/-- The node whose text is checked here. A string under a `system:` pair is checked with the
pair. -/
def sectionTarget (v : Visit) : Option Nat :=
  if v.tree.kind v.node = .pair then
    if v.tree.isSystemPair v.node then v.tree.pairValue v.node else none
  else if (v.tree.ancestors v.node).any v.tree.isSystemPair then none
  else some v.node

def sectionComplaint (v : Visit) : Option Text :=
  if v.tree.inPromptScope v.node then
    (((sectionTarget v).bind v.tree.visibleText).filter hasMiddleSection).map fun _ =>
      "Labeled sections (### text) should appear at the beginning or end, not in the middle".toList
  else none

def sections : Rule where
  id := .sectionPlacement
  description := "### labeled sections sit in the first or last third".toList
  triggers := [.pair, .literal, .composite]
  check := Check.pure sectionComplaint

end PromptAudit.Rule
