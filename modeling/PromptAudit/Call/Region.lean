import PromptAudit.Tree.Basic

namespace PromptAudit.Tree

variable (t : Tree)

/-- Nodes that open a lookup scope of their own. -/
def opensScope (i : Nat) : Bool :=
  ["method", "singleton_method", "class", "module", "singleton_class", "program"].contains (t.type i)

/-- The nearest enclosing method, class or module, or else the topmost node. -/
def enclosingScope (i : Nat) : Nat :=
  ((t.ancestors i).find? t.opensScope).getD ((t.ancestors i).getLastD i)

/-- The nodes of a scope. Bodies of methods, classes and modules do not count to the top level. -/
def scopeNodes (scope : Nat) : List Nat :=
  if t.type scope = "program" then t.inside (fun c => !t.opensScope c) scope
  else t.descendants scope

end PromptAudit.Tree
