import PromptAudit.Rule.Heading
import PromptAudit.Rule.Sections
import PromptAudit.Rule.Injection
import PromptAudit.Rule.Budget
import PromptAudit.Rule.Temperature

namespace PromptAudit.Rule

/-- Every rule, in the order in which they look at a node. -/
def all : List Rule := [heading, sections, injection, budget, termination, temperature]

def named? (name : Text) : Option Rule := all.find? (·.id.name = name)

/-- Texts without repetition, by code points. -/
def sortedNames (names : List Text) : List Text :=
  names.eraseDups.mergeSort Text.notAfter

/-- The rules in `only`, or all when it is empty, without those in `except`. Names that belong
to no rule are an error. -/
def select (only except : List Text) : Except (List Text) (List Rule) :=
  let strange := (only ++ except).filter fun name => (named? name).isNone
  if strange.isEmpty then
    .ok (all.filter fun rule =>
      (only.isEmpty || only.contains rule.id.name) && !except.contains rule.id.name)
  else .error (sortedNames strange)

/-- The text of that error. -/
def strangeNames (names : List Text) : Text :=
  "Unknown rule id(s): ".toList ++ Text.join ", ".toList names

end PromptAudit.Rule
