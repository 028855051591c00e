import PromptAudit.Audit.Workspace
import PromptAudit.Setting.Basic

namespace PromptAudit.Audit

/-- What a host wants otherwise than its settings have it. -/
structure Wishes where
  options : List (Text × Value) := []
  rules : Option (List Rule) := none
  meter : Option Meter := none

namespace Wishes

/-- Without a choice of rules, those that the settings do not disable. -/
def selected (w : Wishes) (s : Settings) : Except Halt (List Rule) :=
  match w.rules with
  | some rules => .ok rules
  | none => (Rule.select [] s.disabledRules).mapError .strangeRules

/-- Without a meter of the host, one that loads the encoding of the settings. -/
def counter (w : Wishes) (load : Encoder.Loader) (s : Settings) : Meter :=
  w.meter.getD { Meter.ofEncoding s.encoding with load }

end Wishes

/-- Audits what lies under the given paths. The policy is settled once, before the first file. -/
def analyze (w : Workspace) (g : Grammars) (s : Settings) (wishes : Wishes) (paths : List Path) :
    Account Report :=
  let (policy, notices) := s.policy wishes.options
  Account.andThen ⟨notices, wishes.selected s⟩ fun rules =>
    auditPaths ⟨w.parser g, w.disk, rules, policy⟩ w.reader s.skippedFolders paths
      (wishes.counter w.load s)

end PromptAudit.Audit
