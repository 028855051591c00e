import PromptAudit.Report.Plain
import PromptAudit.Report.Document

namespace PromptAudit.Report

inductive Format
  | text
  | json
  deriving DecidableEq, Repr

namespace Format

def all : List Format := [text, json]

def name : Format → Text
  | text => "text".toList
  | json => "json".toList

def named? (name : Text) : Option Format := all.find? (·.name = name)

/-- What is said of a format that does not exist; `shown` is how it was given. -/
def unsupported (shown : Text) : Text :=
  "Unsupported format: ".toList ++ shown ++ ". Use: ".toList ++ Text.join ", ".toList (all.map name)

end Format

def write (format : Format) (time : Text) (r : Report) : Text :=
  match format with
  | .text => r.plain
  | .json => r.json time

end PromptAudit.Report
