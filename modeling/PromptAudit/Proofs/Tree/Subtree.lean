import PromptAudit.Proofs.Tree.Numbering
import PromptAudit.Proofs.Tree.Scope

namespace PromptAudit.Tree

variable (t : Tree)

/-- A node encloses what is met in the walk of its subtree. The walk goes down by the rows of
children, and what encloses a node is found on the way up by the parents. -/
theorem mem_subtree_iff {d m : Nat} : m ∈ d :: t.descendants d ↔ t.Encloses d m := by
  rw [List.mem_cons, mem_descendants_iff, Encloses, Relation.reflTransGen_iff_eq_or_transGen, eq_comm]
  rfl

theorem inPromptScope_iff_mem_subtree {m : Nat} :
    t.inPromptScope m = true ↔ ∃ d, m ∈ d :: t.descendants d ∧ t.DeclaresPrompt d := by
  rw [inPromptScope_iff]
  simp only [mem_subtree_iff]

theorem inPromptScope_of_descendant {m i : Nat} (inner : i ∈ t.descendants m)
    (scope : t.inPromptScope m = true) : t.inPromptScope i = true := by
  obtain ⟨d, around, declares⟩ := t.inPromptScope_iff.mp scope
  have nested : t.Encloses m i := t.mem_subtree_iff.mp (List.mem_cons_of_mem m inner)
  exact t.inPromptScope_iff.mpr ⟨d, nested.trans around, declares⟩

/-- Prompt code is made of whole subtrees: those of the classes, modules and methods that name a
prompt. What else is written in the tree, in qualifiers or in the node itself, does not count. -/
theorem promptScope_subtrees (m : Nat) :
    (t.inPromptScope m = true ↔ ∃ d, m ∈ d :: t.descendants d ∧ t.DeclaresPrompt d) ∧
    (t.inPromptScope m = true → ∀ i ∈ t.descendants m, t.inPromptScope i = true) ∧
    ((∀ d, t.DeclaresPrompt d → m ∉ d :: t.descendants d) → t.inPromptScope m = false) ∧
    ∀ u : Tree, (∀ d, u.descendants d = t.descendants d) →
      (∀ d name, u.Declares d name ↔ t.Declares d name) →
      u.inPromptScope m = t.inPromptScope m := by
  refine ⟨t.inPromptScope_iff_mem_subtree, ?_, ?_, ?_⟩
  · intro scope i inner
    exact t.inPromptScope_of_descendant inner scope
  · intro outside
    apply eq_false_of_ne_true
    intro scope
    obtain ⟨d, inside, declares⟩ := t.inPromptScope_iff_mem_subtree.mp scope
    exact outside d declares inside
  · intro u same named
    rw [Bool.eq_iff_iff, inPromptScope_iff_mem_subtree, inPromptScope_iff_mem_subtree]
    simp only [DeclaresPrompt, same, named]

end PromptAudit.Tree
