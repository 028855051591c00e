import PromptAudit.Proofs.Audit.Alone
import PromptAudit.Proofs.Text.Order
import PromptAudit.Proofs.Tree.Sketch

namespace PromptAudit

namespace Rule

/-- A name that is asked for, or to be left out, and belongs to no rule. -/
def Strange (only except : List Text) (name : Text) : Prop :=
  (name ∈ only ∨ name ∈ except) ∧ ∀ rule ∈ all, rule.id.name ≠ name

/-- Where rules are asked for by name no other rule is chosen, and what is left out never is. -/
def Chosen (only except : List Text) (id : RuleId) : Prop :=
  (only = [] ∨ id.name ∈ only) ∧ id.name ∉ except

instance (only except : List Text) (id : RuleId) : Decidable (Chosen only except id) :=
  inferInstanceAs (Decidable (_ ∧ _))

theorem named?_isNone_iff {name : Text} :
    (named? name).isNone = true ↔ ∀ rule ∈ all, rule.id.name ≠ name := by
  simp only [named?, Option.isNone_iff_eq_none, List.find?_eq_none, decide_eq_true_eq, ne_eq]

theorem mem_strange_iff {only except : List Text} {name : Text} :
    name ∈ ((only ++ except).filter fun name => (named? name).isNone) ↔ Strange only except name := by
  rw [List.mem_filter, List.mem_append, named?_isNone_iff, Strange]

theorem mem_sortedNames_iff {names : List Text} {name : Text} :
    name ∈ sortedNames names ↔ name ∈ names := by
  rw [sortedNames, List.mem_mergeSort, List.mem_eraseDups]

/-- Without a strange name the chosen rules are selected, else the strange names are told. -/
inductive Selects (only except : List Text) : Except (List Text) (List Rule) → Prop
  | rules (known : ∀ name, ¬ Strange only except name) :
      Selects only except (.ok (all.filter (Chosen only except ·.id)))
  | strange {names : List Text} (some : names ≠ []) (ascending : names.Pairwise Text.Before)
      (exact : ∀ name, name ∈ names ↔ Strange only except name) : Selects only except (.error names)

theorem selects_select (only except : List Text) : Selects only except (select only except) := by
  dsimp only [select]
  split
  · rename_i none
    rw [List.isEmpty_iff] at none
    have known (name : Text) : ¬ Strange only except name := by
      rw [← mem_strange_iff, none]
      exact List.not_mem_nil
    have chosen (rule : Rule) :
        ((only.isEmpty || only.contains rule.id.name) && !except.contains rule.id.name) =
          decide (Chosen only except rule.id) := by
      rw [Bool.eq_iff_iff, decide_eq_true_eq]
      simp [Chosen]
    simp only [chosen]
    exact .rules known
  · rename_i some
    rw [List.isEmpty_iff] at some
    obtain ⟨name, strange⟩ := List.exists_mem_of_ne_nil _ some
    refine .strange (List.ne_nil_of_mem (mem_sortedNames_iff.mpr strange))
      (Text.mergeSort_notAfter_pairwise (Text.nodup_eraseDups _)) fun name => ?_
    rw [mem_sortedNames_iff, mem_strange_iff]

end Rule

namespace Audit

open Rule

variable {path : Option Text} {policy : Policy} {t : Tree} {m : Meter} {rules : List Rule}

theorem visits_filter (chosen : Rule → Bool) :
    visits (rules.filter chosen) t = (visits rules t).filter (chosen ·.2) := by
  simp only [visits, List.filter_flatMap, List.filter_map, List.filter_filter, Function.comp_def,
    Bool.and_comm]

/-- A part of the rules finds its part of what all of them find. -/
theorem inspect_filter (registered : ∀ rule ∈ rules, rule ∈ Rule.all) (chosen : RuleId → Bool)
    {done : Progress} (ran : inspect rules path policy m t = .ok done) :
    ∃ part, inspect (rules.filter (chosen ·.id)) path policy m t = .ok part ∧
      part.findings = done.findings.filter (chosen ·.rule) := by
  have known : ∀ rule ∈ rules.filter (chosen ·.id), rule ∈ Rule.all :=
    fun rule kept => registered rule (List.mem_filter.mp kept).1
  have sound := (inspect_ok_iff registered).mp ⟨done, ran⟩
  obtain ⟨part, reran⟩ := (@inspect_ok_iff _ path policy t m known).mpr fun visit hv =>
    sound visit (List.mem_filter.mp (visits_filter (t := t) _ ▸ hv)).1
  refine ⟨part, reran, ?_⟩
  rw [findings_of_inspect known reran rfl, findings_of_inspect registered ran rfl, visits_filter,
    List.filter_filterMap, List.filterMap_filter]
  congr 1
  funext visit
  cases found : findingAlone path policy t m visit with
  | none => simp
  | some f => simp [Option.filter, rule_of_findingAlone found]

theorem findingsAt_perm {turned : List Rule} (perm : turned.Perm rules) (i : Nat) :
    (findingsAt path policy t m turned i).Perm (findingsAt path policy t m rules i) :=
  (perm.filter _).filterMap _

/-- Rules in another order find the same at every node. -/
theorem inspect_perm (registered : ∀ rule ∈ rules, rule ∈ Rule.all) {turned : List Rule}
    (perm : turned.Perm rules) {done : Progress}
    (ran : inspect rules path policy m t = .ok done) :
    ∃ other, inspect turned path policy m t = .ok other ∧
      done.findings = t.nodes.flatMap (findingsAt path policy t m rules) ∧
      other.findings = t.nodes.flatMap (findingsAt path policy t m turned) := by
  have known : ∀ rule ∈ turned, rule ∈ Rule.all :=
    fun rule listed => registered rule (perm.mem_iff.mp listed)
  have sound := (inspect_ok_iff registered).mp ⟨done, ran⟩
  obtain ⟨other, reran⟩ := (@inspect_ok_iff _ path policy t m known).mpr fun visit hv => by
    obtain ⟨inside, listed, triggered⟩ := mem_visits.mp hv
    exact sound visit (mem_visits.mpr ⟨inside, perm.mem_iff.mp listed, triggered⟩)
  refine ⟨other, reran, ?_, ?_⟩
  · rw [findings_of_inspect registered ran rfl, filterMap_visits]
  · rw [findings_of_inspect known reran rfl, filterMap_visits]

/-- Names that belong to no rule are told by code points, each once. Else the selected rules, which
count with a meter of their own, find exactly their part of what all rules find; and in whatever
order they look at a node, they find the same there. -/
theorem select_inspect (only except : List Text) (encoding : Text) (encoder : Option Encoder)
    (load : Encoder.Loader) (path : Option Text) (policy : Policy) (t : Tree) :
    match Rule.select only except with
    | .error names => names ≠ [] ∧ names.Pairwise Text.Before ∧
        ∀ name, name ∈ names ↔ Strange only except name
    | .ok rules => (∀ name, ¬ Strange only except name) ∧
        (∀ done, inspect Rule.all path policy { encoding, encoder, load } t = .ok done →
          ∃ part, inspect rules path policy { encoding, encoder, load } t = .ok part ∧
            part.findings = done.findings.filter (Chosen only except ·.rule)) ∧
        ∀ turned part, turned.Perm rules →
          inspect rules path policy { encoding, encoder, load } t = .ok part →
          ∃ other, inspect turned path policy { encoding, encoder, load } t = .ok other ∧
            part.findings =
              t.nodes.flatMap (findingsAt path policy t { encoding, encoder, load } rules) ∧
            other.findings =
              t.nodes.flatMap (findingsAt path policy t { encoding, encoder, load } turned) ∧
            ∀ i, (findingsAt path policy t { encoding, encoder, load } turned i).Perm
              (findingsAt path policy t { encoding, encoder, load } rules i) := by
  have selects := selects_select only except
  cases selected : Rule.select only except with
  | error names =>
    rw [selected] at selects
    cases selects with
    | strange some ascending exact => exact ⟨some, ascending, exact⟩
  | ok rules =>
    rw [selected] at selects
    cases selects with
    | rules known =>
      refine ⟨known, fun done ran => ?_, fun turned part perm ran => ?_⟩
      · exact inspect_filter (fun _ registered => registered) (fun id => Chosen only except id) ran
      · have registered : ∀ rule ∈ Rule.all.filter (Chosen only except ·.id), rule ∈ Rule.all :=
          fun rule kept => (List.mem_filter.mp kept).1
        obtain ⟨other, reran, found, refound⟩ := inspect_perm registered perm ran
        exact ⟨other, reran, found, refound, findingsAt_perm perm⟩

open Tree.Shape (plain held)
open Tree.Forest (leaf only)

/-- A `system:` text without a heading. -/
def prompting : Tree :=
  Tree.promptMethod "\"plain\"" <|
    only (held "value" "string" 22 29) <| leaf (plain "string_content" 23 28) .none

/-- Three tokens are allowed. -/
def tight : Policy := { Policy.standard with maxTokens := 3 }

def headingName : Text := "prompt-heading-format".toList

/-- The text has no heading and five tokens. Without the first rule the second one still finds it,
in whatever order the rules look. -/
theorem prompting_select_inspect :
    ∃ rules done part other,
      Rule.select [] [headingName] = .ok rules ∧
      inspect Rule.all none tight ⟨[], some .chars, 0, false, false, Encoder.load⟩ prompting = .ok done ∧
      done.findings.map (·.rule) = [.headingFormat, .tokenBudget] ∧
      inspect rules none tight ⟨[], some .chars, 0, false, false, Encoder.load⟩ prompting = .ok part ∧
      part.findings = done.findings.filter (Chosen [] [headingName] ·.rule) ∧
      part.findings.map (·.rule) = [.tokenBudget] ∧
      rules.reverse.Perm rules ∧
      inspect rules.reverse none tight ⟨[], some .chars, 0, false, false, Encoder.load⟩ prompting = .ok other := by
  have known : (Rule.select [] [headingName]).isOk = true := by decide +kernel
  have counted : (inspect Rule.all none tight ⟨[], some .chars, 0, false, false, Encoder.load⟩
      prompting).toOption.map (·.findings.map (·.rule)) = some [.headingFormat, .tokenBudget] := by
    decide +kernel
  have answer := select_inspect [] [headingName] [] (some .chars) Encoder.load none tight prompting
  cases selected : Rule.select [] [headingName] with
  | error names =>
    rw [selected] at known
    cases known
  | ok rules =>
    rw [selected] at answer
    obtain ⟨-, keeps, turns⟩ := answer
    cases ran : inspect Rule.all none tight ⟨[], some .chars, 0, false, false, Encoder.load⟩ prompting with
    | error failure =>
      rw [ran] at counted
      cases counted
    | ok done =>
      rw [ran] at counted
      have found : done.findings.map (·.rule) = [.headingFormat, .tokenBudget] :=
        Option.some.inj counted
      obtain ⟨part, reran, kept⟩ := keeps done ran
      obtain ⟨other, turned, -⟩ := turns rules.reverse part rules.reverse_perm reran
      have left : part.findings.map (·.rule) =
          (done.findings.map (·.rule)).filter (Chosen [] [headingName] ·) := by
        rw [kept, List.filter_map]
        rfl
      refine ⟨rules, done, part, other, rfl, rfl, found, reran, kept, ?_, rules.reverse_perm, turned⟩
      rw [left, found]
      decide +kernel

end Audit

end PromptAudit
