import PromptAudit.Finding

namespace PromptAudit

/-- What became of one source unit. -/
structure FileReport where
  path : Text
  findings : List Finding
  error : Option Text
  deriving DecidableEq, Repr

/-- An empty error is none. -/
def FileReport.failed (f : FileReport) : Bool := f.error.any fun e => !e.isEmpty

abbrev Report := List FileReport

namespace Report

/-- One more finding of a rule. A rule that has none so far comes last. -/
def tally (rule : RuleId) : List (RuleId × Nat) → List (RuleId × Nat)
  | [] => [(rule, 1)]
  | c :: rest => if c.1 = rule then (c.1, c.2 + 1) :: rest else c :: tally rule rest

variable (r : Report)

def findings : List Finding := r.flatMap FileReport.findings

def failedFiles : List FileReport := r.filter FileReport.failed

/-- Rules by name with their number of findings; rules without findings are left out. -/
def counts : List (RuleId × Nat) :=
  (r.findings.foldl (fun counts f => tally f.rule counts) []).mergeSort fun a b =>
    Text.notAfter a.1.name b.1.name

/-- What a run ends with: trouble with a file outweighs findings. -/
def exitCode : Nat :=
  if !r.failedFiles.isEmpty then 2 else if !r.findings.isEmpty then 1 else 0

end Report

end PromptAudit
