import PromptAudit.Tree.Position

namespace PromptAudit

inductive RuleId
  | headingFormat
  | sectionPlacement
  | systemInjection
  | tokenBudget
  | missingTermination
  | temperatureRange
  deriving DecidableEq, Repr

namespace RuleId

/-- In the order in which rules look at a node. -/
def all : List RuleId :=
  [headingFormat, sectionPlacement, systemInjection, tokenBudget, missingTermination, temperatureRange]

def name : RuleId → Text
  | headingFormat => "prompt-heading-format".toList
  | sectionPlacement => "prompt-section-placement".toList
  | systemInjection => "prompt-system-injection".toList
  | tokenBudget => "prompt-token-budget".toList
  | missingTermination => "prompt-missing-termination".toList
  | temperatureRange => "prompt-temperature-range".toList

def named? (name : Text) : Option RuleId := all.find? (·.name = name)

end RuleId

/-- A rule broken at a place. -/
structure Finding where
  rule : RuleId
  message : Text
  span : Span
  path : Option Text
  deriving DecidableEq, Repr

/-- `path:line:column: rule: message`, with columns from one; an empty path is left out. -/
def Finding.diagnostic (f : Finding) : Text :=
  let path := match f.path with
    | none => []
    | some p => if p.isEmpty then [] else p ++ [':']
  path ++ Text.ofInt f.span.startLine ++ ':' :: Text.ofInt (f.span.startColumn + 1) ++
    ": ".toList ++ f.rule.name ++ ": ".toList ++ f.message

end PromptAudit
