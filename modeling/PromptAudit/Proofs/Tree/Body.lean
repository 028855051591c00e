import PromptAudit.Proofs.Tree.Interpolation
import PromptAudit.Proofs.Tree.Sketch
import PromptAudit.Proofs.Wording.Body

namespace PromptAudit.Tree

open Wording

variable (t : Tree)

/-- The parts of a heredoc body, in order. -/
def bodyPieces (body : Nat) : List Piece := (t.childrenOf body).flatMap t.heredocPart

def isSquiggly (opening : Nat) : Bool := "<<~".toList.isPrefixOf (t.text opening)

/-- A heredoc says what its body says, and is live where its body has an interpolation. -/
theorem heredocWording_reads {opening body : Nat} (paired : t.heredocBody opening = some body) :
    sources (t.heredocWording opening) = (t.interpolations body).map t.text ∧
      Reads (t.isSquiggly opening) (t.bodyPieces body) (t.heredocWording opening) := by
  have reads : Reads (t.isSquiggly opening) (t.bodyPieces body) (t.heredocWording opening) := by
    rw [heredocWording, paired]
    exact reads_ofHeredoc _ _
  exact ⟨reads.sources.trans (t.pieceSources_heredocParts body), reads⟩

open Shape (plain held)
open Forest (leaf only)

/-- The call `foo(<<-A)` with a body of an interpolation over two lines and an escaped line feed. -/
def dashed : Tree where
  source := Text.encode "foo(<<-A)\n  a #\x7bb\n\x7d \\n\n  A\n".toList
  root := plain "program" 0 27
  children :=
    .more (plain "call" 0 9)
      (leaf (held "method" "identifier" 0 3) <|
        only (held "arguments" "argument_list" 3 9) (leaf (plain "heredoc_beginning" 4 8) .none)) <|
    only (plain "heredoc_body" 9 26)
      (leaf (plain "heredoc_content" 9 14) <|
        .more (plain "interpolation" 14 19) (leaf (plain "identifier" 16 17) .none) <|
        leaf (plain "heredoc_content" 19 20) <|
        leaf (plain "escape_sequence" 20 22) <|
        leaf (plain "heredoc_content" 22 25) <|
        leaf (plain "heredoc_end" 25 26) .none)
  broken := false

theorem dashed_reads :
    dashed.heredocBody 4 = some 5 ∧
      sources (dashed.heredocWording 4) = (dashed.interpolations 5).map dashed.text ∧
      Reads (dashed.isSquiggly 4) (dashed.bodyPieces 5) (dashed.heredocWording 4) := by
  have paired : dashed.heredocBody 4 = some 5 := by decide +kernel
  exact ⟨paired, dashed.heredocWording_reads paired⟩

example : dashed.isSquiggly 4 = false ∧
    dashed.heredocWording 4 =
      [.fixed "  a ".toList, .live "#\x7bb\n\x7d".toList, .fixed " \n\n".toList] := by
  decide +kernel

end PromptAudit.Tree
