import PromptAudit.Text.Word

namespace PromptAudit.Wording

def isQuoteMark (c : Char) : Bool := c = '\x27' || c = '\x22' || c = '\x60'

/-- A tilde or a dash may stand before the delimiter. -/
def afterMark : Text → Text
  | '~' :: r | '-' :: r => r
  | r => r

/-- A delimiter: a whole word, or a word between two equal quotes. -/
def delimiter : Text → Option Text
  | [] => none
  | c :: r =>
      let word := (if isQuoteMark c then r else c :: r).takeWhile Text.isWordChar
      let closed := !isQuoteMark c || (r.dropWhile Text.isWordChar).head? = some c
      if closed && !word.isEmpty then some word else none

/-- The tag of a heredoc opening at the start of a text. -/
def tagAt : Text → Option Text
  | '<' :: '<' :: r => delimiter (afterMark r)
  | _ => none

/-- The tags of all heredoc openings in a text. No opening lies inside another one, for an
opening holds its two angle brackets in front only. -/
def tags : Text → List Text
  | [] => []
  | c :: r => (tagAt (c :: r)).toList ++ tags r

end PromptAudit.Wording
