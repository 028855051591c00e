import PromptAudit.Call.Basic
import PromptAudit.Meter
import PromptAudit.Text.Lines
import PromptAudit.Tree.Definition

namespace PromptAudit

/-- What a rule looks at. -/
structure Visit where
  tree : Tree
  policy : Policy
  node : Nat

/-- An integer literal that no binary64 number comes near. -/
inductive Failure
  | integerTooLarge
  deriving DecidableEq, Repr

def Failure.message : Failure → Text
  | integerTooLarge => "int too large to convert to float".toList

/-- What a look at a node gives: the complaint, if there is one, and what became of the meter. -/
structure Outcome where
  complaint : Option Text
  meter : Meter
  notices : List Notice

abbrev Check := Visit → Meter → Except Failure Outcome

/-- A check that counts no tokens and cannot fail. -/
def Check.pure (complaint : Visit → Option Text) : Check :=
  fun v m => .ok ⟨complaint v, m, []⟩

structure Rule where
  id : RuleId
  description : Text
  triggers : List Kind
  check : Check

namespace Tree

variable (t : Tree)

/-- Known text that shows something. -/
def visibleText (i : Nat) : Option Text := (t.fixedText i).filter fun text => !Text.blank text

end Tree

/-- Does a trimmed line consist of the marks, white space and more text? -/
def isHeaded (marks line : Text) : Bool :=
  marks.isPrefixOf line && (line.drop marks.length).head?.any Text.isBlank

end PromptAudit
