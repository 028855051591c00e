import PromptAudit.Proofs.Audit.Unit
import PromptAudit.Proofs.Rule.Steady

namespace PromptAudit.Audit

variable {rules : List Rule} {path : Option Text} {policy : Policy} {t : Tree} {m n : Meter}

/-- What a rule finds on a visit when it has a meter of its own. -/
def findingAlone (path : Option Text) (policy : Policy) (t : Tree) (m : Meter)
    (visit : Nat × Rule) : Option Finding :=
  match visit.2.check ⟨t, policy, visit.1⟩ m with
  | .ok outcome => findingOf path t visit.1 visit.2 outcome
  | .error _ => none

/-- What rules find at a node, each of them with a meter of its own. -/
def findingsAt (path : Option Text) (policy : Policy) (t : Tree) (m : Meter) (rules : List Rule)
    (i : Nat) : List Finding :=
  (rules.filter (·.triggers.contains (t.kind i))).filterMap fun rule =>
    findingAlone path policy t m (i, rule)

theorem rule_of_findingAlone {visit : Nat × Rule} {f : Finding}
    (found : findingAlone path policy t m visit = some f) : f.rule = visit.2.id := by
  unfold findingAlone at found
  split at found
  · obtain ⟨message, -, rfl⟩ := Option.map_eq_some_iff.mp found
    rfl
  · cases found

theorem findingAlone_of_check {i : Nat} {rule : Rule} {outcome : Outcome}
    (steady : rule.check.Steady) (same : m.source = n.source)
    (checked : rule.check ⟨t, policy, i⟩ m = .ok outcome) :
    findingAlone path policy t n (i, rule) = findingOf path t i rule outcome := by
  obtain ⟨other, rechecked, complaint⟩ := steady.alike same checked
  rw [findingAlone, rechecked]
  simp only [findingOf, complaint]

/-- Rules that share a meter find what each of them finds with a meter of its own. -/
theorem Finds.eq_filterMap {visits : List (Nat × Rule)} {found : List Finding}
    (finds : Finds path policy t visits m found) (steady : ∀ visit ∈ visits, visit.2.check.Steady)
    (same : m.source = n.source) : found = visits.filterMap (findingAlone path policy t n) := by
  induction finds with
  | done _ => rfl
  | @visit i rule m outcome rest later checked _ ih =>
    have first : rule.check.Steady := steady (i, rule) List.mem_cons_self
    have after : outcome.meter.source = n.source := (first.keeps checked).trans same
    rw [ih (fun visit hv => steady visit (List.mem_cons_of_mem _ hv)) after,
      ← findingAlone_of_check first same checked, List.filterMap_cons]
    cases findingAlone path policy t n (i, rule) <;> rfl

theorem source_look {p q : Progress} {visit : Nat × Rule} (steady : visit.2.check.Steady)
    (looked : look path policy t p visit = .ok q) : q.meter.source = p.meter.source := by
  unfold look at looked
  split at looked
  · cases looked
  · rename_i outcome checked
    cases looked
    exact steady.keeps checked

theorem source_foldlM {visits : List (Nat × Rule)}
    (steady : ∀ visit ∈ visits, visit.2.check.Steady) {p done : Progress}
    (ran : visits.foldlM (look path policy t) p = .ok done) :
    done.meter.source = p.meter.source := by
  induction visits generalizing p with
  | nil =>
    cases ran
    rfl
  | cons visit rest ih =>
    rw [List.foldlM_cons] at ran
    cases step : look path policy t p visit with
    | error failure =>
      rw [step] at ran
      cases ran
    | ok q =>
      rw [step] at ran
      have first := source_look (steady visit List.mem_cons_self) step
      exact (ih (fun visit hv => steady visit (List.mem_cons_of_mem _ hv)) ran).trans first

theorem steady_of_mem_visits (registered : ∀ rule ∈ rules, rule ∈ Rule.all) {visit : Nat × Rule}
    (hv : visit ∈ visits rules t) : visit.2.check.Steady := by
  obtain ⟨-, selected, -⟩ := mem_visits.mp hv
  exact Rule.steady_of_registered (registered _ selected)

/-- A run comes to its end when every rule comes to its own on every visit. -/
theorem inspect_ok_iff (registered : ∀ rule ∈ rules, rule ∈ Rule.all) :
    (∃ done, inspect rules path policy m t = .ok done) ↔
      ∀ visit ∈ visits rules t, ∀ n, ∃ outcome, visit.2.check ⟨t, policy, visit.1⟩ n = .ok outcome := by
  constructor
  · intro ran visit hv n
    obtain ⟨done, ran⟩ := ran
    obtain ⟨-, selected, -⟩ := mem_visits.mp hv
    have steadfast (n : Meter) := @Rule.check_ok_iff _ (registered _ selected) ⟨t, policy, visit.1⟩ n
    refine (steadfast n).mpr fun hot => ?_
    have fails (n : Meter) : ¬ ∃ outcome, visit.2.check ⟨t, policy, visit.1⟩ n = .ok outcome :=
      fun checked => (steadfast n).mp checked hot
    obtain ⟨failure, stopped⟩ := exists_failure hv fails ⟨[], [], m⟩
    rw [inspect, stopped] at ran
    cases ran
  · intro sound
    obtain ⟨done, found, ran, -⟩ := exists_finds sound ⟨[], [], m⟩
    exact ⟨done, ran⟩

theorem source_inspect (registered : ∀ rule ∈ rules, rule ∈ Rule.all) {done : Progress}
    (ran : inspect rules path policy m t = .ok done) : done.meter.source = m.source :=
  source_foldlM (fun _ hv => steady_of_mem_visits registered hv) ran

theorem findings_of_inspect (registered : ∀ rule ∈ rules, rule ∈ Rule.all) {done : Progress}
    (ran : inspect rules path policy m t = .ok done) (same : m.source = n.source) :
    done.findings = (visits rules t).filterMap (findingAlone path policy t n) := by
  have sound := (inspect_ok_iff registered).mp ⟨done, ran⟩
  obtain ⟨again, found, reran, finds, listed⟩ := exists_finds sound ⟨[], [], m⟩
  have once : done = again := Except.ok.inj (ran.symm.trans reran)
  rw [once, listed, List.nil_append]
  exact finds.eq_filterMap (fun _ hv => steady_of_mem_visits registered hv) same

theorem filterMap_visits :
    (visits rules t).filterMap (findingAlone path policy t m) =
      t.nodes.flatMap (findingsAt path policy t m rules) := by
  simp only [visits, List.filterMap_flatMap, List.filterMap_map]
  rfl

end PromptAudit.Audit
