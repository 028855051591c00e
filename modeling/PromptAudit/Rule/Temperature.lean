import PromptAudit.Rule.Termination
import PromptAudit.Number.Fixed

namespace PromptAudit.Rule

def completionMethods : List Text := ["chat".toList, "complete".toList, "completion".toList]

/-- Does the text ask for accuracy? -/
def isPrecisionTask (words : List Text) (content : Text) : Bool :=
  !Text.blank content && words.any fun word => Text.occurs word (Text.lower content)

/-- A call on a client, or inside prompt code a call on anything. -/
def candidateCall (v : Visit) : Option Call :=
  match v.tree.clientCall v.policy completionMethods v.node with
  | some c => some c
  | none => (v.tree.call v.policy v.node).filter fun c =>
      completionMethods.contains c.method && c.receiver.node.isSome && v.tree.inPromptScope v.node

def temperatureMessage (temperature limit : Number.Double) : Text :=
  "High temperature (".toList ++ temperature.oneDecimal ++ " > ".toList ++ limit.oneDecimal ++
    ") should not be used for precision tasks. Consider using temperature <= ".toList ++
    limit.oneDecimal ++ " for tasks requiring accuracy.".toList

/-- The messages of a call ask for accuracy. -/
def asksPrecision (v : Visit) (c : Call) : Bool :=
  ((v.tree.keywordValue c parametersKey "messages".toList).bind v.tree.messageContent).any
    (isPrecisionTask v.policy.precisionWords)

def temperatureCheck : Check := fun v m =>
  match (candidateCall v).bind fun c =>
      (v.tree.keywordValue c parametersKey "temperature".toList).map (c, ·) with
  | none => .ok ⟨none, m, []⟩
  | some (c, node) => match v.tree.worth node with
    | .tooLarge => .error .integerTooLarge
    | .none => .ok ⟨none, m, []⟩
    | .number temperature =>
        .ok ⟨if !temperature.le v.policy.temperatureLimit && asksPrecision v c
          then some (temperatureMessage temperature v.policy.temperatureLimit) else none, m, []⟩

def temperature : Rule where
  id := .temperatureRange
  description := "temperature > 0.7 is not used for precision tasks".toList
  triggers := [.call]
  check := temperatureCheck

end PromptAudit.Rule
