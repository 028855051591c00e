import PromptAudit.Proofs.Call.Tightening
import PromptAudit.Proofs.Rule.Steady
import PromptAudit.Proofs.Rule.Temperature

namespace PromptAudit.Rule

variable {t : Tree} {strict loose : Policy} {i : Nat} {m n : Meter} {c d : Call} {a b : Outcome}

/-- A call that is looked at has a temperature above the limit and asks for accuracy. -/
def Risks (v : Visit) : Prop :=
  ∃ c node x, candidateCall v = some c ∧
    v.tree.keywordValue c parametersKey "temperature".toList = some node ∧
    v.tree.worth node = .number x ∧ x.le v.policy.temperatureLimit = false ∧
    asksPrecision v c = true

theorem isSome_complaint_iff_risks {v : Visit} (checked : temperatureCheck v m = .ok a) :
    a.complaint.isSome = true ↔ Risks v := by
  unfold temperatureCheck at checked
  cases found : (candidateCall v).bind fun c =>
      (v.tree.keywordValue c parametersKey "temperature".toList).map (c, ·) with
  | none =>
    rw [found] at checked
    cases checked
    refine iff_of_false (by simp) fun risks => ?_
    obtain ⟨c, node, x, candidate, value, -⟩ := risks
    rw [candidate, Option.bind_some, value] at found
    cases found
  | some pair =>
    obtain ⟨c, candidate, rest⟩ := Option.bind_eq_some_iff.mp found
    obtain ⟨node, value, rfl⟩ := Option.map_eq_some_iff.mp rest
    have only : Risks v ↔ ∃ x, v.tree.worth node = .number x ∧
        x.le v.policy.temperatureLimit = false ∧ asksPrecision v c = true := by
      constructor
      · intro risks
        obtain ⟨d, other, x, same, alike, worth, high, asks⟩ := risks
        cases candidate.symm.trans same
        cases value.symm.trans alike
        exact ⟨x, worth, high, asks⟩
      · intro risks
        obtain ⟨x, worth, high, asks⟩ := risks
        exact ⟨c, node, x, candidate, value, worth, high, asks⟩
    rw [only]
    rw [found] at checked
    dsimp only at checked
    cases worth : v.tree.worth node with
    | tooLarge =>
      rw [worth] at checked
      cases checked
    | none =>
      rw [worth] at checked
      cases checked
      simp
    | number x =>
      rw [worth] at checked
      cases checked
      simp

theorem isUnbounded_of_firms (firms : c.Firms d) : isUnbounded t d = isUnbounded t c := by
  simp only [isUnbounded, firms.keywords, Tree.keywordsComplete_of_firms firms,
    Tree.keywordValue_of_firms firms]

section Tightens

variable (tightens : strict.Tightens loose)

include tightens

theorem candidateCall_of_tightens (candidate : candidateCall ⟨t, loose, i⟩ = some c) :
    ∃ d, candidateCall ⟨t, strict, i⟩ = some d ∧ c.Firms d := by
  unfold candidateCall at candidate ⊢
  cases accepted : t.clientCall loose completionMethods i with
  | some client =>
    rw [accepted] at candidate
    cases candidate
    obtain ⟨d, again, firms⟩ := Tree.clientCall_of_tightens tightens accepted
    rw [again]
    exact ⟨d, rfl, firms⟩
  | none =>
    rw [accepted] at candidate
    obtain ⟨called, shape⟩ := Option.filter_eq_some_iff.mp candidate
    obtain ⟨d, recalled, firms⟩ := Tree.call_of_tightens tightens called
    cases better : t.clientCall strict completionMethods i with
    | some client =>
      have same := (Tree.clientCall_eq_some_iff.mp better).1
      cases recalled.symm.trans same
      exact ⟨d, rfl, firms⟩
    | none =>
      refine ⟨d, Option.filter_eq_some_iff.mpr ⟨recalled, ?_⟩, firms⟩
      rw [firms.method, firms.receiver]
      exact shape

theorem isPrecisionTask_of_tightens {content : Text}
    (asks : isPrecisionTask loose.precisionWords content = true) :
    isPrecisionTask strict.precisionWords content = true := by
  simp only [isPrecisionTask, Bool.and_eq_true, List.any_eq_true] at asks ⊢
  obtain ⟨shown, word, listed, occurs⟩ := asks
  exact ⟨shown, word, tightens.words listed, occurs⟩

theorem asksPrecision_of_tightens (firms : c.Firms d)
    (asks : asksPrecision ⟨t, loose, i⟩ c = true) : asksPrecision ⟨t, strict, i⟩ d = true := by
  simp only [asksPrecision, Option.any_eq_true, Tree.keywordValue_of_firms firms] at asks ⊢
  obtain ⟨content, written, precise⟩ := asks
  exact ⟨content, written, isPrecisionTask_of_tightens tightens precise⟩

theorem risks_of_tightens (risks : Risks ⟨t, loose, i⟩) : Risks ⟨t, strict, i⟩ := by
  obtain ⟨c, node, x, candidate, value, worth, high, asks⟩ := risks
  obtain ⟨d, recandidate, firms⟩ := candidateCall_of_tightens tightens candidate
  refine ⟨d, node, x, recandidate, ?_, worth, ?_, asksPrecision_of_tightens tightens firms asks⟩
  · rw [Tree.keywordValue_of_firms firms]
    exact value
  · refine eq_false_of_ne_true fun low => ?_
    rw [Number.Double.le_trans low tightens.limit] at high
    cases high

theorem injectionComplaint_of_tightens :
    injectionComplaint ⟨t, strict, i⟩ = injectionComplaint ⟨t, loose, i⟩ := by
  simp only [injectionComplaint, tightens.tag]

theorem isSome_terminationComplaint_of_tightens
    (complains : (terminationComplaint ⟨t, loose, i⟩).isSome = true) :
    (terminationComplaint ⟨t, strict, i⟩).isSome = true := by
  rw [terminationComplaint, Option.isSome_map, Option.isSome_iff_exists] at complains ⊢
  obtain ⟨c, found⟩ := complains
  obtain ⟨accepted, unbounded⟩ := Option.filter_eq_some_iff.mp found
  obtain ⟨d, again, firms⟩ := Tree.clientCall_of_tightens tightens accepted
  refine ⟨d, Option.filter_eq_some_iff.mpr ⟨again, ?_⟩⟩
  rw [isUnbounded_of_firms firms]
  exact unbounded

theorem isSome_budgetComplaint_of_tightens {count : Count}
    (complains : (budgetComplaint loose.maxTokens count).isSome = true) :
    (budgetComplaint strict.maxTokens count).isSome = true := by
  have less := tightens.tokens
  unfold budgetComplaint at complains ⊢
  split at complains
  · cases complains
  · rw [if_neg (by omega)]
    rfl

/-- Where a rule complains under a policy it complains under a stricter one, in the same words or in
others. -/
theorem complaint_of_tightens {rule : Rule} (registered : rule ∈ all) (same : m.source = n.source)
    (checked : rule.check ⟨t, loose, i⟩ m = .ok a) (rechecked : rule.check ⟨t, strict, i⟩ n = .ok b)
    (complains : a.complaint.isSome = true) : b.complaint.isSome = true := by
  simp only [all, List.mem_cons, List.not_mem_nil, or_false] at registered
  rcases registered with rfl | rfl | rfl | rfl | rfl | rfl
  · cases checked
    cases rechecked
    exact complains
  · cases checked
    cases rechecked
    exact complains
  · cases checked
    cases rechecked
    dsimp only at complains ⊢
    rw [injectionComplaint_of_tightens tightens]
    exact complains
  · dsimp only [budget] at checked rechecked
    rw [budgetCheck_eq] at checked rechecked
    cases checked
    cases rechecked
    have text : budgetText ⟨t, strict, i⟩ = budgetText ⟨t, loose, i⟩ := rfl
    rw [text]
    cases shown : budgetText ⟨t, loose, i⟩ with
    | none =>
      rw [shown] at complains
      cases complains
    | some content =>
      rw [shown, same] at complains
      exact isSome_budgetComplaint_of_tightens tightens complains
  · cases checked
    cases rechecked
    exact isSome_terminationComplaint_of_tightens tightens complains
  · have risks := (isSome_complaint_iff_risks checked).mp complains
    exact (isSome_complaint_iff_risks rechecked).mpr (risks_of_tightens tightens risks)

end Tightens

end PromptAudit.Rule
