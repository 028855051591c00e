import PromptAudit.Command.Run
import PromptAudit.Proofs.Audit.Files
import PromptAudit.Proofs.Report.Plain
import PromptAudit.Proofs.Report.Tally

namespace PromptAudit

namespace Document

/-- What stands under a key of a table. -/
def field? (d : Document) (key : String) : Option Document :=
  match d with
  | table fields => fields.lookup key.toList
  | _ => none

def items? : Document → Option (List Document)
  | list items => some items
  | _ => none

def text? : Document → Option Text
  | text t => some t
  | _ => none

/-- What stands in the summary of a report's document. -/
def summary? (d : Document) (key : String) : Option Document :=
  (d.field? "summary").bind (·.field? key)

/-- The files of a report's document. -/
def files (d : Document) : List Document := ((d.field? "files").bind items?).getD []

/-- The findings of a file in a report's document. -/
def findings (d : Document) : List Document := ((d.field? "findings").bind items?).getD []

/-- Does a file in a report's document have an error? -/
def failed (d : Document) : Bool := ((d.field? "error").bind text?).any fun e => !e.isEmpty

/-- The rules that the findings in a report's document are about. -/
def ruleNames (d : Document) : List Text :=
  (d.files.flatMap findings).filterMap fun x => (x.field? "rule_id").bind text?

/-- The summary of a report's document tells of so many files, failed files and findings, and its
list of files shows as many. -/
structure Summed (d : Document) (files failed found : Nat) : Prop where
  fileCount : d.summary? "file_count" = some (.ofNat files)
  failedCount : d.summary? "failed_count" = some (.ofNat failed)
  findingCount : d.summary? "finding_count" = some (.ofNat found)
  files : d.files.length = files
  failed : d.files.countP Document.failed = failed
  findings : (d.files.map (·.findings.length)).sum = found
  byRule : ∃ counts : List (Text × Nat),
    d.summary? "by_rule" = some (.table (counts.map fun c => (c.1, .ofNat c.2))) ∧
    (counts.map Prod.fst).Pairwise Text.Before ∧
    (∀ name n, (name, n) ∈ counts ↔ 0 < n ∧ n = d.ruleNames.count name) ∧
    (counts.map Prod.snd).sum = found

end Document

namespace Report

open Document

theorem files_document (time : Text) (r : Report) : (r.document time).files = r.map fileDocument :=
  rfl

theorem failed_fileDocument (f : FileReport) : (fileDocument f).failed = f.failed := by
  obtain ⟨path, findings, error⟩ := f
  cases error <;> rfl

theorem ruleNames_document (time : Text) (r : Report) :
    (r.document time).ruleNames = r.findings.map (·.rule.name) := by
  have rule (f : Finding) : ((findingDocument f).field? "rule_id").bind text? = some f.rule.name :=
    rfl
  have listed : (r.document time).files.flatMap Document.findings =
      r.findings.map findingDocument := by
    rw [files_document, List.flatMap_map, findings, List.map_flatMap]
    rfl
  rw [ruleNames, listed, List.filterMap_map]
  simp only [Function.comp_def, rule]
  exact congrFun List.filterMap_eq_map' _

theorem summed_document (time : Text) (r : Report) :
    (r.document time).Summed r.length r.failedCount r.foundCount where
  fileCount := rfl
  failedCount := by
    rw [← length_failedFiles]
    rfl
  findingCount := by
    rw [← length_findings]
    rfl
  files := List.length_map ..
  failed := by
    rw [files_document, List.countP_map, failedCount]
    exact List.countP_congr fun f _ => by rw [Function.comp_apply, failed_fileDocument]
  findings := by
    rw [files_document, List.map_map, foundCount]
    congr 2
    funext f
    exact List.length_map ..
  byRule := by
    have tallies := tallies_counts r
    refine ⟨r.counts.map fun c => (c.1.name, c.2), ?_, ?_, fun name n => ?_, ?_⟩
    · rw [List.map_map]
      rfl
    · rw [List.map_map]
      exact counts_ascending r
    · have rules : r.findings.map (·.rule.name) = (r.findings.map Finding.rule).map RuleId.name := by
        rw [List.map_map]
        rfl
      rw [ruleNames_document, rules]
      exact tallies.mem_map_name_iff
    · rw [List.map_map, ← length_findings, ← List.length_map Finding.rule]
      exact tallies.total

/-- A run of the command line that comes to a report. -/
def Made (s : Command.Surroundings) (settings : Settings) (c : Command.Choices) (r : Report) : Prop :=
  ∃ rules, Rule.select c.only (settings.disabledRules ++ c.except) = .ok rules ∧
    (Audit.analyze s.workspace s.grammars settings { options := c.options, rules := some rules }
      c.paths).result = .ok r

theorem check_of_made {s : Command.Surroundings} {settings : Settings} {c : Command.Choices}
    {r : Report} (made : Made s settings c r) (log : Command.Log) (before : Text) :
    ∃ shown, Command.check s settings log before c =
      .ok ⟨r.exitCode, r.write c.format s.time ++ ['\n'], shown⟩ := by
  obtain ⟨rules, selected, audited⟩ := made
  rw [Command.check, selected]
  dsimp only
  rw [audited]
  exact ⟨_, rfl⟩

/-- Both exports of a report and the end of a run that makes it tell the same. -/
structure Agrees (r : Report) (time : Text) : Prop where
  summed : (r.document time).Summed r.length r.failedCount r.foundCount
  json : r.write .json time = (r.document time).render 0
  text : r.write .text time = Text.join ['\n'] (r.detailLines ++
    (if r.failedCount + r.foundCount = 0 then [] else [[]]) ++
      [summaryOf r.length r.foundCount r.failedCount])
  details : r.detailLines.length = r.failedCount + r.foundCount
  inOrder : r.detailLines = r.flatMap fileLines ∧ ∀ f ∈ r,
    (fileLines f).length = (if f.failed then 1 else 0) + f.findings.length
  lines (unbroken : ∀ f ∈ r, f.Unbroken) : Text.pieces (· == '\n') (r.write .text time) =
    r.detailLines ++ (if r.failedCount + r.foundCount = 0 then [] else [[]]) ++
      [summaryOf r.length r.foundCount r.failedCount]
  exit (s : Command.Surroundings) (settings : Settings) (c : Command.Choices)
    (made : Made s settings c r) (log : Command.Log) (before : Text) :
    ∃ shown, Command.check s settings log before c =
      .ok ⟨if 0 < r.failedCount then 2 else if 0 < r.foundCount then 1 else 0,
        r.write c.format s.time ++ ['\n'], shown⟩

/-- The document, the text and the exit code of a run agree on how many files were inspected, how
many failed and what was found. -/
theorem outputs_agree (r : Report) (time : Text) : r.Agrees time where
  summed := summed_document time r
  json := rfl
  text := plain_eq r
  details := length_detailLines r
  inOrder := ⟨rfl, fun f _ => length_fileLines f⟩
  lines unbroken := pieces_plain unbroken
  exit s settings c made log before := by
    rw [← exitCode_eq]
    exact check_of_made made log before

/-- The shelf of two files, a garbled one among them. -/
def shelfSurroundings : Command.Surroundings where
  workspace := Audit.shelf
  environment := []
  grammars := .standard
  stamp := []
  time := []

def shelfChoices : Command.Choices := { paths := Audit.shelfPaths, format := .json }

/-- One file is garbled, one is not there, and two rules find something in the third. -/
theorem shelf_outputs_agree :
    ∃ r : Report, Made shelfSurroundings Audit.sparing shelfChoices r ∧ (∀ f ∈ r, f.Unbroken) ∧
      r.failedCount = 2 ∧ r.foundCount = 2 ∧ r.Agrees shelfSurroundings.time := by
  have told : (Audit.analyze Audit.shelf .standard Audit.sparing
      { options := [], rules := some Rule.all } Audit.shelfPaths).result.toOption.map
        (fun r => (decide (∀ f ∈ r, f.Unbroken), failedCount r, foundCount r)) =
      some (true, 2, 2) := by
    simp only [Audit.analyze, Audit.auditPaths, Audit.discover_shelf, Audit.Account.andThen,
      Audit.shelfFiles, List.map_cons, List.map_nil, Audit.auditFiles, Audit.auditFile,
      Audit.read_shelf]
    decide +kernel
  cases ran : (Audit.analyze Audit.shelf .standard Audit.sparing
      { options := [], rules := some Rule.all } Audit.shelfPaths).result with
  | error halt =>
    rw [ran] at told
    cases told
  | ok r =>
    rw [ran] at told
    obtain ⟨unbroken, counts⟩ := Prod.mk.inj (Option.some.inj told)
    obtain ⟨failed, found⟩ := Prod.mk.inj counts
    exact ⟨r, ⟨Rule.all, rfl, ran⟩, of_decide_eq_true unbroken, failed, found, outputs_agree r _⟩

end Report

end PromptAudit
