import PromptAudit.Audit.Unit
import PromptAudit.Discovery
import PromptAudit.Report

namespace PromptAudit.Audit

/-- Understands the bytes of a unit, or says that it has no grammar for them. -/
abbrev Parser := Bytes → Except Problem Tree

/-- What a run works with. -/
structure Plan where
  parser : Parser
  disk : Disk
  rules : List Rule
  policy : Policy

/-- What ends a run without a report. -/
inductive Halt
  | strangeRules (names : List Text)
  | problem (p : Problem)
  | failure (f : Failure)
  | search (s : Discovery.Stop)

def Halt.message : Halt → Text
  | strangeRules names => Rule.strangeNames names
  | problem p => p.message
  | failure f => f.message
  | search stop => stop.message

/-- An answer, or what ended the run, and all that was told before. -/
structure Account (α : Type) where
  notices : List Notice
  result : Except Halt α

namespace Account

/-- Goes on with an answer; what was told before stays in front. -/
def andThen {α β : Type} (a : Account α) (next : α → Account β) : Account β :=
  match a.result with
  | .error halt => ⟨a.notices, .error halt⟩
  | .ok answer => ⟨a.notices ++ (next answer).notices, (next answer).result⟩

end Account

/-- A unit that cannot be read, or that its parser did not understand. -/
def failedReport (path : Path) (m : Meter) (p : Problem) : Account (FileReport × Meter) :=
  ⟨[.failedUnit p.message], .ok (⟨path.toText, [], some p.message⟩, m)⟩

/-- What cannot be a path at all is no unit that could be reported. -/
def auditFile (plan : Plan) (path : Path) (m : Meter) : Account (FileReport × Meter) :=
  if path.hasNull then ⟨[], .error (.search (.unsettled .nullCharacter))⟩
  else match plan.disk.read path with
    | .error trouble => failedReport path m (.unreadable path.toText trouble.message)
    | .ok bytes => match plan.parser bytes with
      | .error problem => ⟨[], .error (.problem problem)⟩
      | .ok tree => match inspectUnit plan.rules (some path.toText) plan.policy m tree with
        | .error (.problem problem) => failedReport path m problem
        | .error (.failure failure) => ⟨[], .error (.failure failure)⟩
        | .ok done => ⟨done.notices, .ok (⟨path.toText, done.findings, none⟩, done.meter)⟩

/-- Files one after the other; they share the meter and nothing else. -/
def auditFiles (plan : Plan) : List Path → Meter → Account Report
  | [], _ => ⟨[], .ok []⟩
  | path :: rest, m =>
      (auditFile plan path m).andThen fun (file, meter) =>
        (auditFiles plan rest meter).andThen fun files => ⟨[], .ok (file :: files)⟩

/-- Finds the files under the given paths and audits each of them. -/
def auditPaths (plan : Plan) (reader : Discovery.IgnoreReader) (skipped : List Text)
    (paths : List Path) (m : Meter) : Account Report :=
  match Discovery.discover reader plan.disk skipped paths with
  | .error stop => ⟨[], .error (.search stop)⟩
  | .ok (files, notices) =>
      Account.andThen ⟨notices ++ [.analyzing files.length plan.rules.length], .ok files⟩
        (auditFiles plan · m)

end PromptAudit.Audit
