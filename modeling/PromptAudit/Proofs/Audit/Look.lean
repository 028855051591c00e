import PromptAudit.Audit.Unit

namespace PromptAudit.Audit

/-- A rule that counts no tokens adds its complaint, if it has one, as a finding at the node. -/
theorem look_of_pure {rule : Rule} {complaint : Visit → Option Text}
    (h : rule.check = Check.pure complaint) (path : Option Text) (policy : Policy) (t : Tree)
    (p : Progress) (i : Nat) :
    ∃ q, look path policy t p (i, rule) = .ok q ∧
      q.findings = p.findings ++
        ((complaint ⟨t, policy, i⟩).map fun message => ⟨rule.id, message, t.span i, path⟩).toList := by
  simp only [look, h, Check.pure]
  exact ⟨_, rfl, rfl⟩

end PromptAudit.Audit
