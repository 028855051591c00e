import PromptAudit.Problem
import PromptAudit.Rule.Selection

namespace PromptAudit.Audit

/-- How far the look at a unit has come. -/
structure Progress where
  findings : List Finding
  notices : List Notice
  meter : Meter

/-- One rule at one node. -/
def look (path : Option Text) (policy : Policy) (t : Tree) (p : Progress) (visit : Nat × Rule) :
    Except Failure Progress :=
  match visit.2.check ⟨t, policy, visit.1⟩ p.meter with
  | .error failure => .error failure
  | .ok outcome =>
      let finding := outcome.complaint.map fun message =>
        (⟨visit.2.id, message, t.span visit.1, path⟩ : Finding)
      .ok ⟨p.findings ++ finding.toList, p.notices ++ outcome.notices ++ finding.toList.map .found,
        outcome.meter⟩

/-- Every node in document order with the rules it triggers. -/
def visits (rules : List Rule) (t : Tree) : List (Nat × Rule) :=
  t.nodes.flatMap fun i => (rules.filter (·.triggers.contains (t.kind i))).map (i, ·)

/-- Every rule looks at every node that triggers it. -/
def inspect (rules : List Rule) (path : Option Text) (policy : Policy) (meter : Meter) (t : Tree) :
    Except Failure Progress :=
  (visits rules t).foldlM (look path policy t) ⟨[], [], meter⟩

/-- Why a unit has no findings list. -/
inductive UnitError
  | problem (p : Problem)
  | failure (f : Failure)

/-- A unit that its parser did not understand is not looked at. -/
def inspectUnit (rules : List Rule) (path : Option Text) (policy : Policy) (meter : Meter)
    (t : Tree) :
    Except UnitError Progress :=
  match t.firstErrorLine with
  | some line => .error (.problem (.unparsed path line))
  | none => (inspect rules path policy meter t).mapError .failure

end PromptAudit.Audit
