import PromptAudit.Proofs.Audit.Look
import PromptAudit.Proofs.Tree.Interpolation
import PromptAudit.Proofs.Tree.Line
import PromptAudit.Proofs.Tree.Scope
import PromptAudit.Proofs.Wording.Opening

namespace PromptAudit

open Wording Audit

namespace Tree

variable (t : Tree)

/-- A node is a heredoc with the tag, or a heredoc with the tag opens on the line where the node
starts. -/
inductive OpensTagged (i : Nat) (tag : Text) : Prop
  | own (type : t.type i = "heredoc_beginning") (first : OpensFirstIn tag (t.text i))
  | line {before line after : Bytes} (holds : HoldsLine t.source (t.start i) before line after)
      (opens : OpensIn tag (Text.decode line))

theorem isTagged_iff {i : Nat} {tag : Text} : t.isTagged i tag = true ↔ t.OpensTagged i tag := by
  have own : t.heredocTag i = some tag ↔
      t.type i = "heredoc_beginning" ∧ OpensFirstIn tag (t.text i) := by
    simp only [heredocTag, Option.ite_none_right_eq_some, head?_tags_eq_some_iff]
  simp only [isTagged, Bool.or_eq_true, decide_eq_true_eq, List.contains_iff_mem, mem_tags_iff, own]
  constructor
  · intro h
    rcases h with ⟨type, first⟩ | opens
    · exact .own type first
    · obtain ⟨before, after, holds⟩ := t.holdsLine_lineBytes (t.start i)
      exact .line holds opens
  · intro h
    cases h with
    | own type first => exact .inl ⟨type, first⟩
    | line holds opens =>
      rw [holds.eq_lineBytes] at opens
      exact .inr opens

end Tree

namespace Rule

theorem injectionComplaint_eq_some_iff (v : Visit) :
    injectionComplaint v = some injectionMessage ↔
      v.tree.IsComposite v.node ∧
      (∃ d, v.tree.Encloses d v.node ∧ v.tree.DeclaresPrompt d) ∧
      v.tree.OpensTagged v.node v.policy.systemTag ∧
      v.tree.Interpolates v.node := by
  have live (h : v.tree.IsComposite v.node) :
      (v.tree.wording v.node).any hasLive = true ↔ v.tree.Interpolates v.node := by
    rw [v.tree.any_hasLive_wording (v.tree.kind_eq_composite_iff.mpr h),
      v.tree.hasLive_rawWording_iff h]
  simp only [injectionComplaint, Option.ite_none_right_eq_some, Bool.and_eq_true,
    decide_eq_true_eq, Tree.kind_eq_composite_iff, Tree.inPromptScope_iff, Tree.isTagged_iff,
    and_true, and_assoc]
  constructor
  · intro h
    obtain ⟨composite, scope, tagged, shown⟩ := h
    exact ⟨composite, scope, tagged, (live composite).mp shown⟩
  · intro h
    obtain ⟨composite, scope, tagged, stands⟩ := h
    exact ⟨composite, scope, tagged, (live composite).mpr stands⟩

/-- Looking at a node for interpolations in system prompts never fails. It adds a finding at the
node when a composite string in prompt code is or stands beside a tagged heredoc and an
interpolation stands in it, and adds nothing otherwise. -/
theorem look_injection_iff (path : Option Text) (policy : Policy) (t : Tree) (p : Progress)
    (n : Nat) :
    ∃ q, look path policy t p (n, injection) = .ok q ∧
      (q.findings = p.findings ++ [⟨.systemInjection, injectionMessage, t.span n, path⟩] ↔
        t.IsComposite n ∧ (∃ d, t.Encloses d n ∧ t.DeclaresPrompt d) ∧
        t.OpensTagged n policy.systemTag ∧ t.Interpolates n) ∧
      (q.findings = p.findings ↔
        ¬ (t.IsComposite n ∧ (∃ d, t.Encloses d n ∧ t.DeclaresPrompt d) ∧
          t.OpensTagged n policy.systemTag ∧ t.Interpolates n)) := by
  have pure : injection.check = Check.pure injectionComplaint := rfl
  obtain ⟨q, looked, found⟩ := look_of_pure pure path policy t p n
  have complains := injectionComplaint_eq_some_iff ⟨t, policy, n⟩
  refine ⟨q, looked, ?_⟩
  rw [← complains, found]
  cases h : injectionComplaint ⟨t, policy, n⟩ with
  | none => simp
  | some message =>
    have same : message = injectionMessage := by
      simp only [injectionComplaint, Option.ite_none_right_eq_some, Option.some.injEq] at h
      exact h.2.symm
    subst same
    exact ⟨iff_of_true rfl rfl, by simp⟩

end Rule

end PromptAudit
