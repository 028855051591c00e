import PromptAudit.Rule.Basic

namespace PromptAudit.Rule

def injectionMessage : Text :=
  ("Avoid dynamic interpolation in SYSTEM heredocs to prevent prompt injection " ++
    "vulnerabilities").toList

def injectionComplaint (v : Visit) : Option Text :=
  if v.tree.kind v.node = .composite && v.tree.inPromptScope v.node &&
      v.tree.isTagged v.node v.policy.systemTag && (v.tree.wording v.node).any Wording.hasLive then
    some injectionMessage
  else none

def injection : Rule where
  id := .systemInjection
  description := "SYSTEM heredocs in prompt code contain no interpolation".toList
  triggers := [.composite]
  check := Check.pure injectionComplaint

end PromptAudit.Rule
