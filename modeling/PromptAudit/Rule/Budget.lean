import PromptAudit.Rule.Basic

namespace PromptAudit.Rule

def budgetMessage (actual limit : Int) : Text :=
  "Prompt text exceeds maximum token limit (".toList ++ Text.ofInt actual ++ " > ".toList ++
    Text.ofInt limit ++ " tokens)".toList

/-- Only text that shows something in prompt code is counted. -/
def budgetCheck : Check := fun v m =>
  match (if v.tree.inPromptScope v.node then v.tree.visibleText v.node else none) with
  | none => .ok ⟨none, m, []⟩
  | some content =>
      let (count, meter, notices) := m.count content
      .ok ⟨if (count.value : Int) ≤ v.policy.maxTokens then none
        else some (budgetMessage count.value v.policy.maxTokens), meter, notices⟩

def budget : Rule where
  id := .tokenBudget
  description := "Prompt strings stay within MaxTokens (default 4000)".toList
  triggers := [.literal, .composite]
  check := budgetCheck

end PromptAudit.Rule
