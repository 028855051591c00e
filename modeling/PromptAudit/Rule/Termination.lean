import PromptAudit.Rule.Basic

namespace PromptAudit.Rule

def parametersKey : Text := "parameters".toList

def terminationKeys : List Text := ["stop".toList, "max_tokens".toList]

def chatMethods : List Text := ["chat".toList]

/-- Nothing bounds the call's output, as far as all its keywords can be read. -/
def isUnbounded (t : Tree) (c : Call) : Bool :=
  !c.keywords.isEmpty &&
    (c.keywords.get? parametersKey).all (t.type · = "hash") &&
    t.keywordsComplete c parametersKey &&
    terminationKeys.all fun key => (t.keywordValue c parametersKey key).isNone

def terminationMessage (call : Text) : Text :=
  call ++ (" call should include 'stop:' or 'max_tokens:' parameter to prevent runaway " ++
    "generation").toList

def terminationComplaint (v : Visit) : Option Text :=
  ((v.tree.clientCall v.policy chatMethods v.node).filter (isUnbounded v.tree)).map fun c =>
    terminationMessage (v.tree.describeCall c)

def termination : Rule where
  id := .missingTermination
  description := "Client chat calls pass stop: or max_tokens:".toList
  triggers := [.call]
  check := Check.pure terminationComplaint

end PromptAudit.Rule
