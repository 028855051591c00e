import PromptAudit.Proofs.Tree.Alike
import PromptAudit.Rule.Selection

namespace PromptAudit.Rule

variable {t u : Tree} {policy : Policy} {i : Nat}

theorem headingComplaint_alike (alike : t.Alike u) :
    headingComplaint ⟨t, policy, i⟩ = headingComplaint ⟨u, policy, i⟩ := by
  simp only [headingComplaint, alike.isSystemPair, alike.inPromptScope, alike.pairValue,
    alike.visibleText]

theorem sectionComplaint_alike (alike : t.Alike u) :
    sectionComplaint ⟨t, policy, i⟩ = sectionComplaint ⟨u, policy, i⟩ := by
  have target : sectionTarget ⟨t, policy, i⟩ = sectionTarget ⟨u, policy, i⟩ := by
    simp only [sectionTarget, alike.kind, alike.isSystemPair, alike.pairValue, alike.ancestors]
  simp only [sectionComplaint, target, alike.inPromptScope, alike.visibleText]

theorem injectionComplaint_alike (alike : t.Alike u) (hi : i < t.size) :
    injectionComplaint ⟨t, policy, i⟩ = injectionComplaint ⟨u, policy, i⟩ := by
  simp only [injectionComplaint, alike.kind, alike.inPromptScope, alike.isTagged hi, alike.wording]

theorem budgetCheck_alike (alike : t.Alike u) (m : Meter) :
    budgetCheck ⟨t, policy, i⟩ m = budgetCheck ⟨u, policy, i⟩ m := by
  simp only [budgetCheck, alike.inPromptScope, alike.visibleText]

theorem terminationComplaint_alike (alike : t.Alike u) :
    terminationComplaint ⟨t, policy, i⟩ = terminationComplaint ⟨u, policy, i⟩ := by
  have unbounded : isUnbounded t = isUnbounded u := by
    funext c
    simp only [isUnbounded, alike.type, alike.keywordsComplete, alike.keywordValue]
  simp only [terminationComplaint, alike.clientCall, unbounded, alike.describeCall]

theorem temperatureCheck_alike (alike : t.Alike u) (m : Meter) :
    temperatureCheck ⟨t, policy, i⟩ m = temperatureCheck ⟨u, policy, i⟩ m := by
  have candidate : candidateCall ⟨t, policy, i⟩ = candidateCall ⟨u, policy, i⟩ := by
    simp only [candidateCall, alike.clientCall, alike.call, alike.inPromptScope]
  have asks : asksPrecision ⟨t, policy, i⟩ = asksPrecision ⟨u, policy, i⟩ := by
    funext c
    simp only [asksPrecision, alike.keywordValue, alike.messageContent]
  simp only [temperatureCheck, candidate, asks, alike.keywordValue, alike.worth]

/-- No rule can tell such trees apart. -/
theorem check_alike {rule : Rule} (registered : rule ∈ all) (alike : t.Alike u) (hi : i < t.size)
    (m : Meter) : rule.check ⟨t, policy, i⟩ m = rule.check ⟨u, policy, i⟩ m := by
  simp only [all, List.mem_cons, List.not_mem_nil, or_false] at registered
  rcases registered with rfl | rfl | rfl | rfl | rfl | rfl
  · simp only [heading, Check.pure, headingComplaint_alike alike]
  · simp only [sections, Check.pure, sectionComplaint_alike alike]
  · simp only [injection, Check.pure, injectionComplaint_alike alike hi]
  · exact budgetCheck_alike alike m
  · simp only [termination, Check.pure, terminationComplaint_alike alike]
  · exact temperatureCheck_alike alike m

end PromptAudit.Rule
