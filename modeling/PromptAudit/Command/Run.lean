import PromptAudit.Audit.Entry
import PromptAudit.Command.Help
import PromptAudit.Command.Log
import PromptAudit.Command.Request
import PromptAudit.Report.Format
import PromptAudit.Setting.Sources

namespace PromptAudit.Command

open Audit

/-- What a process finds around it. `stamp` stands before each line of its log, `time` in its
reports. -/
structure Surroundings where
  workspace : Workspace
  environment : List (Text × Text)
  grammars : Grammars
  stamp : Text
  time : Text

/-- What a process leaves behind. -/
structure Output where
  exit : Nat
  stdout : Text
  stderr : Text
  deriving DecidableEq, Repr

/-- What ends a process before it is done. -/
inductive Crash
  | sources (fault : SettingSources.Fault)
  | settings (fields : List Text)
  | halt (h : Halt)

def Crash.message : Crash → Text
  | sources fault => fault.message
  | settings fields => "Invalid settings: ".toList ++ Text.join ", ".toList fields
  | halt h => h.message

namespace Output

def success (stdout stderr : Text) : Output := ⟨0, stdout, stderr⟩

/-- What the log showed, and then an error. -/
def failure (log reason : Text) : Output := ⟨2, [], log ++ "Error: ".toList ++ reason ++ ['\n']⟩

end Output

def versionLine : Text := "promptlint ".toList ++ Report.version ++ ['\n']

/-- Every rule with its description, in two columns. -/
def ruleLines : Text :=
  let width := (Rule.all.map (·.id.name.length)).foldr max 0
  Rule.all.flatMap fun rule =>
    rule.id.name ++ List.replicate (width - rule.id.name.length + 2) ' ' ++ rule.description ++ ['\n']

/-- The only option that the command line passes on. -/
def Choices.options (c : Choices) : List (Text × Value) :=
  match c.limit with
  | none => []
  | some limit => [(Settings.limitOption, .text limit)]

/-- Everything is shown to whom asks for it. -/
def Choices.log (c : Choices) (l : Log) : Log :=
  if c.verbose then { l with threshold := Level.debug.rank } else l

/-- Audits and reports; `before` is what the log has shown until then. -/
def check (s : Surroundings) (settings : Settings) (log : Log) (before : Text) (c : Choices) :
    Except Crash Output :=
  match Rule.select c.only (settings.disabledRules ++ c.except) with
  | .error names => .ok (.failure before (Rule.strangeNames names))
  | .ok rules =>
      let wishes : Wishes := { options := c.options, rules := some rules }
      let account := analyze s.workspace s.grammars settings wishes c.paths
      let shown := before ++ (c.log log).shown s.stamp account.notices
      match account.result with
      | .error (.problem problem) => .ok (.failure shown problem.message)
      | .error halt => .error (.halt halt)
      | .ok report => .ok ⟨report.exitCode, report.write c.format s.time ++ ['\n'], shown⟩

/-- Settings are read before the log is set up. -/
def answer (s : Surroundings) (r : Request) : Except Crash Output :=
  match SettingSources.find s.workspace.disk s.environment (.table []) with
  | .error fault => .error (.sources fault)
  | .ok sources => match Settings.read sources with
    | .error fields => .error (.settings fields)
    | .ok (settings, notices) =>
        let before := Log.shown {} s.stamp notices
        let log := Log.setUp {} settings.logLevel
        match r with
        | .overview => .ok (.success Page.program.help before)
        | .rules => .ok (.success ruleLines before)
        | .check c => check s settings log before c

/-- The whole program. Help, mistakes in the arguments and the version need no settings. -/
def run (s : Surroundings) (arguments : List Text) : Except Crash Output :=
  match Request.ofArguments arguments with
  | .error (.help page) => .ok (.success page.help [])
  | .error (.misuse page complaint) => .ok ⟨2, [], misuse page complaint⟩
  | .error .version => .ok (.success versionLine [])
  | .ok request => answer s request

end PromptAudit.Command
