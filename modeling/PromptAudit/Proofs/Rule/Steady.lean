import PromptAudit.Proofs.Meter.History
import PromptAudit.Rule.Selection

namespace PromptAudit

/-- A check says the same with all meters that count with the same encoder, and hands on a meter
that still counts with it. -/
structure Check.Steady (check : Check) : Prop where
  alike {v : Visit} {m n : Meter} {outcome : Outcome} (same : m.source = n.source)
    (checked : check v m = .ok outcome) :
    ∃ other, check v n = .ok other ∧ other.complaint = outcome.complaint
  keeps {v : Visit} {m : Meter} {outcome : Outcome} (checked : check v m = .ok outcome) :
    outcome.meter.source = m.source

namespace Rule

theorem steady_pure (complaint : Visit → Option Text) : (Check.pure complaint).Steady := by
  constructor
  · intro v m n outcome _ checked
    cases checked
    exact ⟨_, rfl, rfl⟩
  · intro v m outcome checked
    cases checked
    rfl

/-- The text that the budget is about: what a string in prompt code shows. -/
def budgetText (v : Visit) : Option Text :=
  if v.tree.inPromptScope v.node then v.tree.visibleText v.node else none

def budgetComplaint (limit : Int) (count : Count) : Option Text :=
  if (count.value : Int) ≤ limit then none else some (budgetMessage count.value limit)

theorem budgetCheck_eq (v : Visit) (m : Meter) :
    budgetCheck v m = .ok (match budgetText v with
      | none => ⟨none, m, []⟩
      | some content => ⟨budgetComplaint v.policy.maxTokens (Meter.reading m.source content),
          (m.count content).2.1, (m.count content).2.2⟩) := by
  rw [budgetCheck, ← budgetText]
  cases budgetText v with
  | none => rfl
  | some content =>
    dsimp only
    rw [← Meter.count_fst]
    rfl

theorem steady_budget : budgetCheck.Steady := by
  constructor
  · intro v m n outcome same checked
    rw [budgetCheck_eq] at checked ⊢
    cases checked
    refine ⟨_, rfl, ?_⟩
    cases budgetText v with
    | none => rfl
    | some content => rw [same]
  · intro v m outcome checked
    rw [budgetCheck_eq] at checked
    cases checked
    cases budgetText v with
    | none => rfl
    | some content => exact m.source_count content

theorem steady_temperature : temperatureCheck.Steady := by
  constructor
  · intro v m n outcome _ checked
    unfold temperatureCheck at checked ⊢
    split at checked
    · cases checked
      exact ⟨_, rfl, rfl⟩
    · split at checked
      · cases checked
      · cases checked
        exact ⟨_, rfl, rfl⟩
      · cases checked
        exact ⟨_, rfl, rfl⟩
  · intro v m outcome checked
    unfold temperatureCheck at checked
    split at checked
    · cases checked
      rfl
    · split at checked <;> cases checked <;> rfl

theorem steady_of_registered {rule : Rule} (registered : rule ∈ all) : rule.check.Steady := by
  simp only [all, List.mem_cons, List.not_mem_nil, or_false] at registered
  rcases registered with rfl | rfl | rfl | rfl | rfl | rfl
  · exact steady_pure headingComplaint
  · exact steady_pure sectionComplaint
  · exact steady_pure injectionComplaint
  · exact steady_budget
  · exact steady_pure terminationComplaint
  · exact steady_temperature

end Rule

end PromptAudit
