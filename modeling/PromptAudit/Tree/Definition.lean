import PromptAudit.Tree.Kind
import PromptAudit.Text.Lower

namespace PromptAudit.Tree

variable (t : Tree)

/-- The declared name of a class, module or method. A qualified name counts by its last segment,
and a class that is opened on an object has no name. -/
def definitionName (i : Nat) : Option Text :=
  if t.kind i = .definition then
    match t.field i "name" with
    | none => none
    | some name =>
        if t.type i = "method" || t.type i = "singleton_method" then some (t.text name)
        else if t.type i = "class" || t.type i = "module" then
          if t.type name = "scope_resolution" then (t.field name "name").map t.text
          else some (t.text name)
        else none
  else none

def namesPrompt (i : Nat) : Bool :=
  (t.definitionName i).any fun name => Text.occurs "prompt".toList (Text.lower name)

/-- The node or a definition around it names a prompt. -/
def inPromptScope (i : Nat) : Bool := t.namesPrompt i || (t.ancestors i).any t.namesPrompt

end PromptAudit.Tree
