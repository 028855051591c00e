import PromptAudit.Literal.Key
import PromptAudit.Literal.Numeral
import PromptAudit.Policy

namespace PromptAudit.Tree

variable (t : Tree)

/-- The segments of a reference made of constants only. -/
def constantPath (i : Nat) : Option (List Text) :=
  if t.type i = "constant" then some [t.text i]
  else if t.type i = "scope_resolution" then
    match t.field i "name" with
    | none => none
    | some name =>
        if t.type name = "constant" then
          match _h : t.field i "scope" with
          | none => some [t.text name]
          | some scope => (constantPath scope).map (· ++ [t.text name])
        else none
  else none
termination_by t.size - i
decreasing_by
  have := t.bounds_of_mem_childrenOf (t.mem_childrenOf_of_field (by assumption))
  omega

/-- `Type.new` with exactly the path of a client type. -/
def constructsClient (policy : Policy) (i : Nat) : Bool :=
  t.kind i = .call &&
    (t.field i "method").any (t.text · = "new".toList) &&
    ((t.field i "receiver").bind t.constantPath).any policy.clientPaths.contains

end PromptAudit.Tree
