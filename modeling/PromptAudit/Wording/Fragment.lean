import PromptAudit.Text.Basic

namespace PromptAudit

/-- A piece of a string: text known before the program runs, or the source of an interpolation
whose text is not. -/
inductive Fragment
  | fixed (text : Text)
  | live (source : Text)
  deriving DecidableEq, Repr

/-- What a string says, piece by piece. -/
abbrev Wording := List Fragment

namespace Fragment

def text : Fragment → Text
  | fixed t => t
  | live s => s

def fixedText : Fragment → Text
  | fixed t => t
  | live _ => []

def isLive : Fragment → Bool
  | fixed _ => false
  | live _ => true

end Fragment

namespace Wording

/-- All that is known before the program runs. -/
def fixedText (w : Wording) : Text := w.flatMap Fragment.fixedText

def hasLive (w : Wording) : Bool := w.any Fragment.isLive

end Wording

end PromptAudit
