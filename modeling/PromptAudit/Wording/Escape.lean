import PromptAudit.Text.Basic

namespace PromptAudit.Wording

/-- The character behind a backslash and a letter. -/
def escaped : Char → Option Char
  | 'n' => some '\n'
  | 't' => some '\t'
  | 'r' => some '\r'
  | 's' => some ' '
  | '0' => some '\x00'
  | 'e' => some '\x1b'
  | '\x22' => some '\x22'
  | '\x27' => some '\x27'
  | '\\' => some '\\'
  | '#' => some '#'
  | _ => none

/-- The value of an escape sequence. Numeric escapes stay as written. -/
def readEscape : Text → Text
  | ['\\', c] => match escaped c with
    | some v => [v]
    | none => ['\\', c]
  | t => t

end PromptAudit.Wording
