import PromptAudit.Proofs.Audit.Alone
import PromptAudit.Proofs.Call.Binding
import PromptAudit.Proofs.Rule.Tightening

namespace PromptAudit.Audit

variable {rules : List Rule} {path : Option Text} {policy strict loose : Policy} {t : Tree}
  {m n : Meter}

/-- The rule and the node of every look in a run that adds a finding. -/
def places (path : Option Text) (policy : Policy) (t : Tree) :
    Progress → List (Nat × Rule) → List (RuleId × Nat)
  | _, [] => []
  | p, visit :: rest => match look path policy t p visit with
    | .error _ => []
    | .ok q => (if q.findings = p.findings then [] else [(visit.2.id, visit.1)]) ++
        places path policy t q rest

/-- Where rules find something in a unit. -/
def findingPlaces (rules : List Rule) (path : Option Text) (policy : Policy) (m : Meter)
    (t : Tree) : List (RuleId × Nat) :=
  places path policy t ⟨[], [], m⟩ (visits rules t)

/-- A finding of a rule at a node. -/
def FoundAt (t : Tree) (place : RuleId × Nat) (f : Finding) : Prop :=
  f.rule = place.1 ∧ f.span = t.span place.2

theorem findings_look {p q : Progress} {visit : Nat × Rule} (steady : visit.2.check.Steady)
    (same : p.meter.source = n.source) (looked : look path policy t p visit = .ok q) :
    q.findings = p.findings ++ (findingAlone path policy t n visit).toList := by
  obtain ⟨i, rule⟩ := visit
  unfold look at looked
  split at looked
  · cases looked
  · rename_i outcome checked
    cases looked
    rw [findingAlone_of_check steady same checked]
    rfl

/-- The places of a run are those where a rule with a meter of its own finds something. -/
theorem places_eq {visits : List (Nat × Rule)} {p done : Progress}
    (steady : ∀ visit ∈ visits, visit.2.check.Steady) (same : p.meter.source = n.source)
    (ran : visits.foldlM (look path policy t) p = .ok done) :
    places path policy t p visits =
      (visits.filter fun visit => (findingAlone path policy t n visit).isSome).map
        fun visit => (visit.2.id, visit.1) := by
  induction visits generalizing p with
  | nil => rfl
  | cons visit rest ih =>
    have first := steady visit List.mem_cons_self
    rw [List.foldlM_cons] at ran
    cases looked : look path policy t p visit with
    | error failure =>
      rw [looked] at ran
      cases ran
    | ok q =>
      rw [looked] at ran
      have later := ih (fun visit hv => steady visit (List.mem_cons_of_mem _ hv))
        ((source_look first looked).trans same) ran
      rw [places, looked]
      dsimp only
      rw [later, findings_look first same looked]
      cases found : findingAlone path policy t n visit with
      | none => simp [found]
      | some f => simp [found]

theorem foundAt_places {visits : List (Nat × Rule)} :
    List.Forall₂ (FoundAt t)
      ((visits.filter fun visit => (findingAlone path policy t n visit).isSome).map
        fun visit => (visit.2.id, visit.1))
      (visits.filterMap (findingAlone path policy t n)) := by
  induction visits with
  | nil => exact .nil
  | cons visit rest ih =>
    cases found : findingAlone path policy t n visit with
    | none =>
      rw [List.filter_cons_of_neg (by simp [found]), List.filterMap_cons_none found]
      exact ih
    | some f =>
      have place : FoundAt t (visit.2.id, visit.1) f := by
        refine ⟨rule_of_findingAlone found, ?_⟩
        unfold findingAlone at found
        split at found
        · obtain ⟨message, -, rfl⟩ := Option.map_eq_some_iff.mp found
          rfl
        · cases found
      rw [List.filter_cons_of_pos (by simp [found]), List.filterMap_cons_some found]
      exact .cons place ih

theorem findingPlaces_eq (registered : ∀ rule ∈ rules, rule ∈ Rule.all) {done : Progress}
    (ran : inspect rules path policy m t = .ok done) (same : m.source = n.source) :
    findingPlaces rules path policy m t =
      ((visits rules t).filter fun visit => (findingAlone path policy t n visit).isSome).map
        fun visit => (visit.2.id, visit.1) :=
  places_eq (fun _ hv => steady_of_mem_visits registered hv) same ran

/-- What a rule finds on a visit under a policy it finds there under a stricter one, if it comes to
its end there. -/
theorem isSome_findingAlone_of_tightens (tightens : strict.Tightens loose) {visit : Nat × Rule}
    (registered : visit.2 ∈ Rule.all)
    (sound : ∃ outcome, visit.2.check ⟨t, strict, visit.1⟩ m = .ok outcome)
    (found : (findingAlone path loose t m visit).isSome = true) :
    (findingAlone path strict t m visit).isSome = true := by
  obtain ⟨after, rechecked⟩ := sound
  unfold findingAlone at found ⊢
  rw [rechecked]
  cases checked : visit.2.check ⟨t, loose, visit.1⟩ m with
  | error failure =>
    rw [checked] at found
    cases found
  | ok before =>
    rw [checked] at found
    simp only [findingOf, Option.isSome_map] at found ⊢
    exact Rule.complaint_of_tightens tightens registered rfl checked rechecked found

/-- Where a run finds something under a policy, one under a stricter policy does so, too, and in the
same order. So a looser limit or a shorter table adds no finding at a new place. -/
theorem findingPlaces_sublist (registered : ∀ rule ∈ rules, rule ∈ Rule.all)
    (tightens : strict.Tightens loose) (same : m.source = n.source) {few many : Progress}
    (ran : inspect rules path loose m t = .ok few)
    (reran : inspect rules path strict n t = .ok many) :
    List.Forall₂ (FoundAt t) (findingPlaces rules path loose m t) few.findings ∧
    List.Forall₂ (FoundAt t) (findingPlaces rules path strict n t) many.findings ∧
    (findingPlaces rules path loose m t).Sublist (findingPlaces rules path strict n t) := by
  have sound := (inspect_ok_iff registered).mp ⟨many, reran⟩
  have kept : ∀ visit ∈ visits rules t, (findingAlone path loose t n visit).isSome = true →
      (findingAlone path strict t n visit).isSome = true := by
    intro visit hv found
    obtain ⟨-, selected, -⟩ := mem_visits.mp hv
    exact isSome_findingAlone_of_tightens tightens (registered _ selected) (sound visit hv n) found
  rw [findingPlaces_eq registered ran same, findingPlaces_eq registered reran rfl,
    findings_of_inspect registered ran same, findings_of_inspect registered reran rfl]
  refine ⟨foundAt_places, foundAt_places, List.Sublist.map _ ?_⟩
  have fewer : (visits rules t).filter (fun visit => (findingAlone path loose t n visit).isSome) =
      ((visits rules t).filter fun visit => (findingAlone path strict t n visit).isSome).filter
        fun visit => (findingAlone path loose t n visit).isSome := by
    rw [List.filter_filter]
    refine List.filter_congr fun visit hv => ?_
    cases found : (findingAlone path loose t n visit).isSome with
    | false => rfl
    | true => rw [kept visit hv found]; rfl
  rw [fewer]
  exact List.filter_sublist

open Tree.Shape (plain held)
open Tree.Forest (leaf only)

/-- A chat call on `client`, to which a new client is assigned. -/
def assigned : Tree where
  source := Text.encode "client = OpenAI::Client.new\nclient.chat(model: 1)\n".toList
  root := plain "program" 0 50
  children :=
    .more (plain "assignment" 0 27)
      (leaf (held "left" "identifier" 0 6) <|
        only (held "right" "call" 9 27) <|
          .more (held "receiver" "scope_resolution" 9 23)
            (leaf (held "scope" "constant" 9 15) <| leaf (held "name" "constant" 17 23) .none) <|
          leaf (held "method" "identifier" 24 27) .none) <|
    Tree.clientChat 28 .none
  broken := false

/-- No client is known but by its name. -/
def byName : Policy := { Policy.standard with clientTypes := [], clientHints := ["client".toList] }

theorem standard_tightens_byName : Policy.standard.Tightens byName where
  tag := rfl
  types := List.nil_subset _
  hints := by decide
  words := List.Subset.refl _
  tokens := Int.le_refl _
  limit := by decide +kernel

/-- The call is found under both policies, though for other reasons and in other words. -/
theorem assigned_places_sublist :
    (∀ rule ∈ Rule.all, rule ∈ Rule.all) ∧ Policy.standard.Tightens byName ∧
    ∃ few many, inspect Rule.all none byName (.ofEncoding []) assigned = .ok few ∧
      inspect Rule.all none .standard (.ofEncoding []) assigned = .ok many ∧
      few.findings.map (·.message) = [Rule.terminationMessage "client.chat".toList] ∧
      many.findings.map (·.message) = [Rule.terminationMessage "OpenAI::Client.chat".toList] ∧
      findingPlaces Rule.all none byName (.ofEncoding []) assigned = [(.missingTermination, 8)] ∧
      (findingPlaces Rule.all none byName (.ofEncoding []) assigned).Sublist
        (findingPlaces Rule.all none .standard (.ofEncoding []) assigned) := by
  have named : (inspect Rule.all none byName (.ofEncoding []) assigned).toOption.map
      (·.findings.map (·.message)) = some [Rule.terminationMessage "client.chat".toList] := by
    decide +kernel
  have traced : (inspect Rule.all none .standard (.ofEncoding []) assigned).toOption.map
      (·.findings.map (·.message)) =
        some [Rule.terminationMessage "OpenAI::Client.chat".toList] := by
    decide +kernel
  have place : findingPlaces Rule.all none byName (.ofEncoding []) assigned =
      [(.missingTermination, 8)] := by
    decide +kernel
  have registered : ∀ rule ∈ Rule.all, rule ∈ Rule.all := fun _ listed => listed
  cases ran : inspect Rule.all none byName (.ofEncoding []) assigned with
  | error failure =>
    rw [ran] at named
    cases named
  | ok few =>
    cases reran : inspect Rule.all none .standard (.ofEncoding []) assigned with
    | error failure =>
      rw [reran] at traced
      cases traced
    | ok many =>
      rw [ran] at named
      rw [reran] at traced
      obtain ⟨-, -, fewer⟩ :=
        findingPlaces_sublist registered standard_tightens_byName rfl ran reran
      exact ⟨registered, standard_tightens_byName, few, many, rfl, rfl, Option.some.inj named,
        Option.some.inj traced, place, fewer⟩

end PromptAudit.Audit
