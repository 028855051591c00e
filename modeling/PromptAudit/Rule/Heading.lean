import PromptAudit.Rule.Basic

namespace PromptAudit.Rule

/-- The first line that shows something reads `# text`. -/
def startsWithHeading (content : Text) : Bool :=
  match Text.lines (Text.trim (Text.readLineFeeds content)) with
  | [] => false
  | first :: _ => isHeaded ['#'] (Text.trim first)

def headingComplaint (v : Visit) : Option Text :=
  if v.tree.isSystemPair v.node && v.tree.inPromptScope v.node then
    (((v.tree.pairValue v.node).bind v.tree.visibleText).filter fun content =>
      !startsWithHeading content).map
      fun _ => "system: block should start with a Markdown heading (# text)".toList
  else none

def heading : Rule where
  id := .headingFormat
  description := "system: blocks in prompt code start with a '# ' heading".toList
  triggers := [.pair]
  check := Check.pure headingComplaint

end PromptAudit.Rule
