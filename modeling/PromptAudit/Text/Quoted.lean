import PromptAudit.Text.Basic
import PromptAudit.Text.HiddenRuns

namespace PromptAudit.Text

/-- Characters that a quoted text shows by number, for they leave no mark. -/
def isHidden (c : Char) : Bool :=
  if c.toNat < 128 then c.toNat < 32 || c.toNat = 127 else within hiddenRuns c

def hexDigits (width n : Nat) : Text :=
  let digits := Nat.toDigits 16 n
  List.replicate (width - digits.length) '0' ++ digits

def quotedChar (quote c : Char) : Text :=
  if c = quote || c = '\\' then ['\\', c]
  else if c = '\t' then ['\\', 't']
  else if c = '\n' then ['\\', 'n']
  else if c = '\r' then ['\\', 'r']
  else if isHidden c then
    if c.toNat < 0x100 then ['\\', 'x'] ++ hexDigits 2 c.toNat
    else if c.toNat < 0x10000 then ['\\', 'u'] ++ hexDigits 4 c.toNat
    else ['\\', 'U'] ++ hexDigits 8 c.toNat
  else [c]

/-- A text between single quotes, or between double ones when it holds a single and no double
quote. -/
def quoted (t : Text) : Text :=
  let quote := if t.contains '\x27' && !t.contains '\x22' then '\x22' else '\x27'
  quote :: t.flatMap (quotedChar quote) ++ [quote]

end PromptAudit.Text
