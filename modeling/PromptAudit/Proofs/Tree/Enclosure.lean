import Mathlib.Logic.Relation
import PromptAudit.Tree.Definition

namespace PromptAudit.Tree

variable (t : Tree)

/-- One step up from a node. -/
def Under (i p : Nat) : Prop := t.parent i = some p

/-- A node itself, or a node somewhere around it. -/
def Encloses (d i : Nat) : Prop := Relation.ReflTransGen t.Under i d

theorem ancestors_eq (i : Nat) :
    t.ancestors i = match t.parent i with
      | none => []
      | some p => p :: t.ancestors p := by
  rw [ancestors]
  split <;> rename_i h <;> rw [h]

theorem ancestors_of_parent {i p : Nat} (h : t.parent i = some p) :
    t.ancestors i = p :: t.ancestors p := by
  rw [ancestors_eq, h]

theorem ancestors_of_no_parent {i : Nat} (h : t.parent i = none) : t.ancestors i = [] := by
  rw [ancestors_eq, h]

/-- The walk up meets exactly the nodes that steps up lead to. -/
theorem mem_ancestors_iff {i d : Nat} :
    d ∈ t.ancestors i ↔ Relation.TransGen t.Under i d := by
  induction i using Nat.strongRecOn with
  | ind i ih =>
    cases hp : t.parent i with
    | none =>
      rw [t.ancestors_of_no_parent hp]
      refine ⟨fun h => absurd h (List.not_mem_nil), fun h => ?_⟩
      obtain ⟨p, up, -⟩ := Relation.TransGen.head'_iff.mp h
      simp [Under, hp] at up
    | some p =>
      have up : t.Under i p := hp
      rw [t.ancestors_of_parent hp, List.mem_cons, ih p (t.parent_lt hp)]
      constructor
      · intro h
        rcases h with same | far
        · exact .single (same ▸ up)
        · exact .head up far
      · intro h
        obtain ⟨q, step, far⟩ := Relation.TransGen.head'_iff.mp h
        have hq : q = p := Option.some.inj (step.symm.trans hp)
        subst hq
        rcases Relation.reflTransGen_iff_eq_or_transGen.mp far with same | far
        · exact .inl same
        · exact .inr far

theorem encloses_iff {i d : Nat} : t.Encloses d i ↔ d = i ∨ d ∈ t.ancestors i := by
  rw [mem_ancestors_iff]
  exact Relation.reflTransGen_iff_eq_or_transGen

end PromptAudit.Tree
