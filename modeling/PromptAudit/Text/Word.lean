import PromptAudit.Text.Basic
import PromptAudit.Text.WordRuns

namespace PromptAudit.Text

/-- Letters, digits, numerals of every script, and the underscore. -/
def isWordChar (c : Char) : Bool :=
  if c.toNat < 128 then c.isAlphanum || c = '_' else within wordRuns c

end PromptAudit.Text
