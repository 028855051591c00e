import PromptAudit.Text.Basic

namespace PromptAudit.Command

/-- What can be asked for with a dash. -/
inductive Switch
  | help
  | version
  | limit
  | format
  | only
  | except
  | verbose
  deriving DecidableEq, Repr

namespace Switch

def names : Switch → List Text
  | help => ["-h".toList, "--help".toList]
  | version => ["--version".toList]
  | limit => ["--max-tokens".toList]
  | format => ["--format".toList, "-f".toList]
  | only => ["--only".toList]
  | except => ["--except".toList]
  | verbose => ["--verbose".toList, "-v".toList]

/-- All names, as messages show them. -/
def shown (s : Switch) : Text := Text.join ['/'] s.names

/-- Is a value to follow? -/
def takesValue : Switch → Bool
  | limit | format | only | except => true
  | help | version | verbose => false

end Switch

/-- The program itself, or one of its commands. -/
inductive Page
  | program
  | check
  | rules
  deriving DecidableEq, Repr

namespace Page

/-- How the program calls itself there. -/
def title : Page → Text
  | program => "promptlint".toList
  | check => "promptlint check".toList
  | rules => "promptlint rules".toList

def switches : Page → List Switch
  | program => [.help, .version]
  | check => [.help, .limit, .format, .only, .except, .verbose]
  | rules => [.help]

/-- Every name that can be given there. -/
def switchNames (p : Page) : List (Text × Switch) := p.switches.flatMap fun s => s.names.map (·, s)

def named? (p : Page) (name : Text) : Option Switch := p.switchNames.lookup name

def commands : List (Text × Page) := [("check".toList, check), ("rules".toList, rules)]

end Page

end PromptAudit.Command
