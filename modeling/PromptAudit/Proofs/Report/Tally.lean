import Mathlib
import PromptAudit.Proofs.Text.Order
import PromptAudit.Report

namespace PromptAudit

theorem RuleId.name_injective : Function.Injective RuleId.name := by
  intro a b same
  cases a <;> cases b <;> first | rfl | exact absurd same (by decide)

namespace Report

/-- A table that tells of each rule in a list, once, how often it occurs there. -/
structure Tallies (rules : List RuleId) (counts : List (RuleId × Nat)) : Prop where
  distinct : (counts.map Prod.fst).Nodup
  listed (rule : RuleId) : rule ∈ counts.map Prod.fst ↔ rule ∈ rules
  exact (c : RuleId × Nat) (entry : c ∈ counts) : c.2 = rules.count c.1
  total : (counts.map Prod.snd).sum = rules.length

variable {rules : List RuleId} {counts : List (RuleId × Nat)} {rule : RuleId} {c : RuleId × Nat}

theorem Tallies.mem_iff (h : Tallies rules counts) {n : Nat} :
    (rule, n) ∈ counts ↔ 0 < n ∧ n = rules.count rule := by
  constructor
  · intro entry
    have occurs := (h.listed rule).mp (List.mem_map_of_mem entry)
    have same : n = rules.count rule := h.exact _ entry
    exact ⟨same ▸ List.count_pos_iff.mpr occurs, same⟩
  · rintro ⟨some, rfl⟩
    obtain ⟨c, entry, rfl⟩ := List.mem_map.mp ((h.listed rule).mpr (List.count_pos_iff.mp some))
    rw [← h.exact c entry]
    exact entry

/-- The same with the names of rules, of which no two have the same. -/
theorem Tallies.mem_map_name_iff (h : Tallies rules counts) {name : Text} {n : Nat} :
    (name, n) ∈ counts.map (fun c => (c.1.name, c.2)) ↔
      0 < n ∧ n = (rules.map RuleId.name).count name := by
  have named (rule : RuleId) : (rules.map RuleId.name).count rule.name = rules.count rule :=
    List.count_map_of_injective rules RuleId.name RuleId.name_injective rule
  constructor
  · intro entry
    obtain ⟨c, known, same⟩ := List.mem_map.mp entry
    cases same
    rw [named]
    exact h.mem_iff.mp known
  · rintro ⟨some, rfl⟩
    obtain ⟨rule, _, rfl⟩ := List.mem_map.mp (List.count_pos_iff.mp some)
    rw [named] at some ⊢
    exact List.mem_map_of_mem (h.mem_iff.mpr ⟨some, rfl⟩)

theorem Tallies.perm (h : Tallies rules counts) {sorted : List (RuleId × Nat)}
    (perm : sorted.Perm counts) : Tallies rules sorted where
  distinct := (perm.map Prod.fst).nodup_iff.mpr h.distinct
  listed rule := ((perm.map Prod.fst).mem_iff).trans (h.listed rule)
  exact c entry := h.exact c (perm.mem_iff.mp entry)
  total := (perm.map Prod.snd).sum_eq.trans h.total

theorem map_fst_tally (rule : RuleId) (counts : List (RuleId × Nat)) :
    (tally rule counts).map Prod.fst =
      if rule ∈ counts.map Prod.fst then counts.map Prod.fst else counts.map Prod.fst ++ [rule] := by
  induction counts with
  | nil => rfl
  | cons c rest ih =>
    rw [tally]
    by_cases same : c.1 = rule
    · rw [if_pos same, List.map_cons, List.map_cons, if_pos (List.mem_cons.mpr (.inl same.symm))]
    · have here : rule ∈ c.1 :: rest.map Prod.fst ↔ rule ∈ rest.map Prod.fst :=
        List.mem_cons.trans (or_iff_right (Ne.symm same))
      rw [if_neg same, List.map_cons, ih, List.map_cons]
      simp only [here]
      split <;> rfl

theorem sum_tally (rule : RuleId) (counts : List (RuleId × Nat)) :
    ((tally rule counts).map Prod.snd).sum = (counts.map Prod.snd).sum + 1 := by
  induction counts with
  | nil => rfl
  | cons c rest ih =>
    rw [tally]
    split
    · simp only [List.map_cons, List.sum_cons]
      omega
    · rw [List.map_cons, List.sum_cons, ih, List.map_cons, List.sum_cons, Nat.add_assoc]

theorem of_mem_tally (distinct : (counts.map Prod.fst).Nodup) (entry : c ∈ tally rule counts) :
    (c ∈ counts ∧ c.1 ≠ rule) ∨ (∃ n, (rule, n) ∈ counts ∧ c = (rule, n + 1)) ∨
      (rule ∉ counts.map Prod.fst ∧ c = (rule, 1)) := by
  induction counts with
  | nil => exact .inr (.inr ⟨List.not_mem_nil, List.mem_singleton.mp entry⟩)
  | cons d rest ih =>
    obtain ⟨fresh, distinct⟩ := List.nodup_cons.mp distinct
    rw [tally] at entry
    by_cases same : d.1 = rule
    · subst same
      rw [if_pos rfl] at entry
      rcases List.mem_cons.mp entry with rfl | later
      · exact .inr (.inl ⟨d.2, List.mem_cons_self, rfl⟩)
      · exact .inl ⟨List.mem_cons_of_mem d later,
          fun again => fresh (again ▸ List.mem_map_of_mem later)⟩
    · rw [if_neg same] at entry
      rcases List.mem_cons.mp entry with rfl | later
      · exact .inl ⟨List.mem_cons_self, same⟩
      · rcases ih distinct later with ⟨old, apart⟩ | ⟨n, old, rfl⟩ | ⟨absent, rfl⟩
        · exact .inl ⟨List.mem_cons_of_mem d old, apart⟩
        · exact .inr (.inl ⟨n, List.mem_cons_of_mem d old, rfl⟩)
        · refine .inr (.inr ⟨fun known => ?_, rfl⟩)
          rcases List.mem_cons.mp known with first | later
          · exact same first.symm
          · exact absent later

theorem tallies_tally (h : Tallies rules counts) (rule : RuleId) :
    Tallies (rules ++ [rule]) (tally rule counts) where
  distinct := by
    rw [map_fst_tally]
    split
    · exact h.distinct
    · rename_i fresh
      refine List.nodup_append.mpr ⟨h.distinct, List.pairwise_singleton _ _, ?_⟩
      rintro old known new added rfl
      exact fresh (List.mem_singleton.mp added ▸ known)
  listed other := by
    rw [map_fst_tally, List.mem_append, List.mem_singleton, ← h.listed other]
    split
    · rename_i known
      refine ⟨.inl, fun either => either.elim id fun same => same ▸ known⟩
    · rw [List.mem_append, List.mem_singleton]
  exact c entry := by
    rw [List.count_append]
    rcases of_mem_tally h.distinct entry with ⟨old, apart⟩ | ⟨n, old, rfl⟩ | ⟨absent, rfl⟩
    · rw [List.count_singleton, if_neg (by simpa using Ne.symm apart), h.exact c old, Nat.add_zero]
    · rw [List.count_singleton_self, ← h.exact _ old]
    · rw [List.count_singleton_self,
        List.count_eq_zero.mpr fun known => absent ((h.listed rule).mpr known)]
  total := by
    rw [sum_tally, h.total, List.length_append, List.length_singleton]

/-- Tallying findings one after the other accounts for all of them. -/
theorem tallies_foldl (findings : List Finding) (h : Tallies rules counts) :
    Tallies (rules ++ findings.map Finding.rule)
      (findings.foldl (fun counts f => tally f.rule counts) counts) := by
  induction findings generalizing rules counts with
  | nil => simpa using h
  | cons f rest ih =>
    rw [List.foldl_cons, List.map_cons, List.append_cons]
    exact ih (tallies_tally h f.rule)

theorem tallies_nil : Tallies [] [] where
  distinct := List.nodup_nil
  listed _ := Iff.rfl
  exact _ entry := absurd entry List.not_mem_nil
  total := rfl

theorem tallies_findings (findings : List Finding) : Tallies (findings.map Finding.rule)
    (findings.foldl (fun counts f => tally f.rule counts) []) :=
  tallies_foldl findings tallies_nil

theorem tallies_counts (r : Report) : Tallies (r.findings.map Finding.rule) r.counts :=
  (tallies_findings r.findings).perm (List.mergeSort_perm _ _)

theorem counts_ascending (r : Report) : (r.counts.map (·.1.name)).Pairwise Text.Before := by
  refine Text.map_mergeSort_notAfter_pairwise (fun c : RuleId × Nat => c.1.name) ?_
  have names := (List.nodup_map_iff RuleId.name_injective).mpr (tallies_findings r.findings).distinct
  rwa [List.map_map] at names

end Report

end PromptAudit
