import PromptAudit.Tree.Basic

namespace PromptAudit.Tree

variable (t : Tree)

/-- Nodes of a type by the byte where they start. -/
def byStart (type : String) : List Nat :=
  (t.nodes.filter (t.type · = type)).mergeSort fun a b => t.start a ≤ t.start b

/-- Bodies follow their openings in the order of the openings. -/
def heredocs : List (Nat × Nat) := (t.byStart "heredoc_beginning").zip (t.byStart "heredoc_body")

def heredocBody (opening : Nat) : Option Nat :=
  (t.heredocs.find? fun pair => pair.1 = opening).map (·.2)

end PromptAudit.Tree
