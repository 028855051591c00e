import PromptAudit.Proofs.Call.Keyword
import PromptAudit.Proofs.Literal.Numeral
import PromptAudit.Rule.Selection

namespace PromptAudit.Rule

/-- A call that is looked at passes a temperature that has no nearest binary64 number. -/
def Overheats (v : Visit) : Prop :=
  ∃ c node, candidateCall v = some c ∧
    v.tree.keywordValue c parametersKey "temperature".toList = some node ∧ v.tree.TooLarge node

theorem kind_of_candidateCall {v : Visit} {c : Call} (h : candidateCall v = some c) :
    v.tree.kind v.node = .call := by
  have called : v.tree.call v.policy v.node = some c := by
    unfold candidateCall at h
    split at h
    · rename_i client
      rw [← h]
      exact (Tree.clientCall_eq_some_iff.mp client).1
    · exact (Option.filter_eq_some_iff.mp h).1
  obtain ⟨_, isCall, -, -⟩ := Tree.call_eq_some called
  exact isCall

theorem temperatureCheck_ok_iff {v : Visit} {m : Meter} :
    (∃ outcome, temperatureCheck v m = .ok outcome) ↔ ¬ Overheats v := by
  cases found : (candidateCall v).bind fun c =>
      (v.tree.keywordValue c parametersKey "temperature".toList).map (c, ·) with
  | none =>
    refine iff_of_true ⟨_, by rw [temperatureCheck, found]⟩ fun hot => ?_
    obtain ⟨c, node, candidate, value, -⟩ := hot
    rw [candidate, Option.bind_some, value] at found
    cases found
  | some pair =>
    obtain ⟨c, candidate, rest⟩ := Option.bind_eq_some_iff.mp found
    obtain ⟨node, value, rfl⟩ := Option.map_eq_some_iff.mp rest
    have hot : Overheats v ↔ v.tree.worth node = .tooLarge := by
      rw [Tree.worth_eq_tooLarge_iff]
      refine ⟨fun hot => ?_, fun large => ⟨c, node, candidate, value, large⟩⟩
      obtain ⟨d, other, same, alike, large⟩ := hot
      rw [candidate, Option.some.injEq] at same
      subst same
      rw [value, Option.some.injEq] at alike
      exact alike ▸ large
    rw [hot, temperatureCheck, found]
    dsimp only
    cases v.tree.worth node with
    | number temperature => exact iff_of_true ⟨_, rfl⟩ fun hot => by cases hot
    | none => exact iff_of_true ⟨_, rfl⟩ fun hot => by cases hot
    | tooLarge => exact iff_of_false (fun ⟨_, ran⟩ => by cases ran) fun cool => cool rfl

theorem eq_temperature {rule : Rule} (registered : rule ∈ all) (h : rule.id = .temperatureRange) :
    rule = temperature := by
  simp only [all, List.mem_cons, List.not_mem_nil, or_false] at registered
  rcases registered with rfl | rfl | rfl | rfl | rfl | rfl
  · cases h
  · cases h
  · cases h
  · cases h
  · cases h
  · rfl

/-- Every check but one gives an outcome wherever it looks, and so does that one where no
temperature is too large for it. -/
theorem check_ok_iff {rule : Rule} (registered : rule ∈ all) {v : Visit} {m : Meter} :
    (∃ outcome, rule.check v m = .ok outcome) ↔ ¬ (rule.id = .temperatureRange ∧ Overheats v) := by
  simp only [all, List.mem_cons, List.not_mem_nil, or_false] at registered
  rcases registered with rfl | rfl | rfl | rfl | rfl | rfl
  · exact iff_of_true ⟨_, rfl⟩ fun hot => by cases hot.1
  · exact iff_of_true ⟨_, rfl⟩ fun hot => by cases hot.1
  · exact iff_of_true ⟨_, rfl⟩ fun hot => by cases hot.1
  · refine iff_of_true ?_ fun hot => by cases hot.1
    simp only [budget, budgetCheck]
    split <;> exact ⟨_, rfl⟩
  · exact iff_of_true ⟨_, rfl⟩ fun hot => by cases hot.1
  · rw [show temperature.id = .temperatureRange from rfl, and_iff_right rfl]
    exact temperatureCheck_ok_iff

end PromptAudit.Rule
