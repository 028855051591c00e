import PromptAudit.Audit.Unit
import PromptAudit.Proofs.Rule.Temperature
import PromptAudit.Proofs.Tree.Numbering
import PromptAudit.Proofs.Tree.Sketch

namespace PromptAudit

open Rule

namespace Tree

variable (t : Tree)

/-- A node that the parser could not read, or that it only supposed. -/
def IsStrange (i : Nat) : Prop := t.type i = "ERROR" ∨ (t.entry i).shape.missing = true

/-- The line on which the first strange node starts, or the unit where there is none. -/
inductive StrangeLine : Nat → Prop
  | found {i : Nat} (inside : i < t.size) (strange : t.IsStrange i)
      (first : ∀ j < i, ¬ t.IsStrange j) : StrangeLine (t.row (t.start i) + 1)
  | absent (none : ∀ i < t.size, ¬ t.IsStrange i) : StrangeLine (t.row (t.start 0) + 1)

theorem firstErrorLine_of_broken (broken : t.broken = true) :
    ∃ line, t.firstErrorLine = some line ∧ t.StrangeLine line := by
  have strange (i : Nat) :
      (t.type i = "ERROR" || (t.entry i).shape.missing) = true ↔ t.IsStrange i := by
    simp [IsStrange]
  rw [firstErrorLine, if_pos broken]
  refine ⟨_, rfl, ?_⟩
  cases found : t.nodes.find? fun i => t.type i = "ERROR" || (t.entry i).shape.missing with
  | none =>
    refine .absent fun i inside bad => ?_
    exact List.find?_eq_none.mp found i (List.mem_range.mpr inside) ((strange i).mpr bad)
  | some i =>
    obtain ⟨bad, inside, first⟩ := List.find?_range_eq_some.mp found
    refine .found (List.mem_range.mp inside) ((strange i).mp bad) fun j before earlier => ?_
    have passed := first j before
    rw [(strange j).mpr earlier] at passed
    cases passed

end Tree

namespace Audit

variable {rules : List Rule} {path : Option Text} {policy : Policy} {t : Tree}

theorem mem_visits {i : Nat} {rule : Rule} :
    (i, rule) ∈ visits rules t ↔ i < t.size ∧ rule ∈ rules ∧ t.kind i ∈ rule.triggers := by
  simp [visits, Tree.nodes]

/-- What an outcome of a rule at a node adds to the findings. -/
def findingOf (path : Option Text) (t : Tree) (i : Nat) (rule : Rule) (outcome : Outcome) :
    Option Finding :=
  outcome.complaint.map fun message => ⟨rule.id, message, t.span i, path⟩

/-- What rules find on their visits, one after the other with one meter. -/
inductive Finds (path : Option Text) (policy : Policy) (t : Tree) :
    List (Nat × Rule) → Meter → List Finding → Prop
  | done (m : Meter) : Finds path policy t [] m []
  | visit {i : Nat} {rule : Rule} {m : Meter} {outcome : Outcome} {rest : List (Nat × Rule)}
      {later : List Finding} (checked : rule.check ⟨t, policy, i⟩ m = .ok outcome)
      (found : Finds path policy t rest outcome.meter later) :
      Finds path policy t ((i, rule) :: rest) m ((findingOf path t i rule outcome).toList ++ later)

theorem look_of_check (path : Option Text) {p : Progress} {i : Nat} {rule : Rule}
    {outcome : Outcome} (checked : rule.check ⟨t, policy, i⟩ p.meter = .ok outcome) :
    ∃ q, look path policy t p (i, rule) = .ok q ∧ q.meter = outcome.meter ∧
      q.findings = p.findings ++ (findingOf path t i rule outcome).toList := by
  rw [look, checked]
  exact ⟨_, rfl, rfl, rfl⟩

theorem exists_finds {visits : List (Nat × Rule)}
    (sound : ∀ visit ∈ visits, ∀ m, ∃ outcome, visit.2.check ⟨t, policy, visit.1⟩ m = .ok outcome)
    (p : Progress) :
    ∃ done found, visits.foldlM (look path policy t) p = .ok done ∧
      Finds path policy t visits p.meter found ∧ done.findings = p.findings ++ found := by
  induction visits generalizing p with
  | nil => exact ⟨p, [], rfl, .done _, (List.append_nil _).symm⟩
  | cons visit rest ih =>
    obtain ⟨outcome, checked⟩ := sound visit List.mem_cons_self p.meter
    obtain ⟨q, step, meter, added⟩ := look_of_check path checked
    obtain ⟨done, later, ran, found, listed⟩ :=
      ih (fun visit hv => sound visit (List.mem_cons_of_mem _ hv)) q
    refine ⟨done, _, ?_, .visit checked (meter ▸ found), ?_⟩
    · rw [List.foldlM_cons, step]
      exact ran
    · rw [listed, added, List.append_assoc]

theorem exists_failure {visits : List (Nat × Rule)} {visit : Nat × Rule} (hv : visit ∈ visits)
    (fails : ∀ m, ¬ ∃ outcome, visit.2.check ⟨t, policy, visit.1⟩ m = .ok outcome) (p : Progress) :
    ∃ failure, visits.foldlM (look path policy t) p = .error failure := by
  induction visits generalizing p with
  | nil => exact absurd hv List.not_mem_nil
  | cons first rest ih =>
    rw [List.foldlM_cons]
    cases step : look path policy t p first with
    | error failure => exact ⟨failure, rfl⟩
    | ok q =>
      rcases List.mem_cons.mp hv with same | later
      · subst same
        unfold look at step
        split at step
        · cases step
        · rename_i outcome checked
          exact absurd ⟨outcome, checked⟩ (fails p.meter)
      · exact ih later q

/-- The rule for temperatures is among the rules, and a temperature is too large for it. -/
def Overheated (rules : List Rule) (policy : Policy) (t : Tree) : Prop :=
  ∃ rule ∈ rules, rule.id = .temperatureRange ∧ ∃ i, Overheats ⟨t, policy, i⟩

theorem exists_visit_of_overheated (registered : ∀ rule ∈ rules, rule ∈ Rule.all)
    (hot : Overheated rules policy t) :
    ∃ visit ∈ visits rules t, visit.2.id = .temperatureRange ∧ Overheats ⟨t, policy, visit.1⟩ := by
  obtain ⟨rule, selected, isTemperature, i, c, node, candidate, value, large⟩ := hot
  have isCall : t.kind i = .call := kind_of_candidateCall candidate
  have inside : i < t.size := by
    refine Tree.lt_size_of_type fun nowhere => ?_
    simp [Tree.kind, nowhere, Tree.collectionTypes, Tree.definitionTypes] at isCall
  have same : rule = temperature := eq_temperature (registered rule selected) isTemperature
  refine ⟨(i, rule), mem_visits.mpr ⟨inside, selected, ?_⟩, isTemperature, c, node, candidate,
    value, large⟩
  rw [same, isCall]
  exact List.mem_singleton_self _

theorem inspectUnit_of_whole (whole : t.broken = false) {meter : Meter} :
    inspectUnit rules path policy meter t =
      (inspect rules path policy meter t).mapError .failure := by
  rw [inspectUnit, Tree.firstErrorLine, whole]
  rfl

open Tree.Shape (plain held)
open Tree.Forest (leaf only)

/-- A chat call on a new client that passes an integer as its temperature. -/
def heated (digits : Text) : Tree :=
  let stop := 37 + digits.length
  { source := Text.encode
      ("OpenAI::Client.new.chat(temperature: ".toList ++ digits ++ ", max_tokens: 1)\n".toList)
    root := plain "program" 0 (stop + 17)
    children :=
      only (plain "call" 0 (stop + 16))
        (.more (held "receiver" "call" 0 18)
          (.more (held "receiver" "scope_resolution" 0 14)
            (leaf (held "scope" "constant" 0 6) <| leaf (held "name" "constant" 8 14) .none) <|
            leaf (held "method" "identifier" 15 18) .none) <|
          leaf (held "method" "identifier" 19 23) <|
          only (held "arguments" "argument_list" 23 (stop + 16))
            (.more (plain "pair" 24 stop)
              (leaf (held "key" "hash_key_symbol" 24 35) <|
                leaf (held "value" "integer" 37 stop) .none) <|
              only (plain "pair" (stop + 2) (stop + 15))
                (leaf (held "key" "hash_key_symbol" (stop + 2) (stop + 12)) <|
                  leaf (held "value" "integer" (stop + 14) (stop + 15)) .none)))
    broken := false }

/-- The greatest integer below the limit: the first 53 of its 1024 places are ones, the next one is
not, and all further ones are. -/
def warmest : Text := "0x".toList ++ List.replicate 13 'f' ++ 'b' :: List.replicate 242 'f'

/-- The limit. -/
def hottest : Text := "0x".toList ++ List.replicate 13 'f' ++ 'c' :: List.replicate 242 '0'

example : Number.signed? Number.prefixedValue? warmest = some (Number.Double.limit - 1 : Int) ∧
    Number.signed? Number.prefixedValue? hottest = some (Number.Double.limit : Int) := by
  decide +kernel

end Audit

end PromptAudit
