import PromptAudit.Proofs.Text.LineFeeds
import PromptAudit.Rule.Heading
import PromptAudit.Rule.Sections

namespace PromptAudit.Rule

open Text

variable {content other : Text}

/-- A heading is looked for in what is read, so each line feed may be written either way. -/
theorem startsWithHeading_of_writesOut (writes : WritesOut content other) :
    startsWithHeading other = startsWithHeading content := by
  rw [startsWithHeading, startsWithHeading, readLineFeeds_of_writesOut writes]

theorem visibleLines_of_writesOut (writes : WritesOut content other) :
    visibleLines other = visibleLines content := by
  rw [visibleLines, visibleLines, readLineFeeds_of_writesOut writes]

theorem hasMiddleSection_of_writesOut (writes : WritesOut content other) :
    hasMiddleSection other = hasMiddleSection content := by
  rw [hasMiddleSection, hasMiddleSection, visibleLines_of_writesOut writes]

/-- What is read of a content is the one text that has no line feed in letters and can be written
as the content is. So a content with all its line feeds in letters is read like the content itself,
what has been read is read again without change, and the checks of headings and of sections find
the same in both. More backslashes in front of a line feed or of a letter do not matter: a line
feed in letters starts with its only backslash and ends with its letter, so no two of them overlap,
and writing one out completes no other. -/
theorem line_feeds_interchangeable (content : Text) :
    (∀ t, readLineFeeds content = t ↔ WritesOut t content ∧ ¬ feedInLetters <:+: t) ∧
    readLineFeeds (writeLineFeeds content) = readLineFeeds content ∧
    readLineFeeds (readLineFeeds content) = readLineFeeds content ∧
    startsWithHeading (writeLineFeeds content) = startsWithHeading content ∧
    hasMiddleSection (writeLineFeeds content) = hasMiddleSection content := by
  have written : WritesOut content (writeLineFeeds content) := writesOut_writeLineFeeds content
  have read : WritesOut (readLineFeeds content) content := writesOut_readLineFeeds content
  refine ⟨fun t => readLineFeeds_eq_iff, readLineFeeds_of_writesOut written, ?_,
    startsWithHeading_of_writesOut written, hasMiddleSection_of_writesOut written⟩
  exact (readLineFeeds_of_writesOut read).symm

example :
    writeLineFeeds "\\\n\\\\n".toList = "\\\\n\\\\n".toList ∧
    readLineFeeds "\\\\n\\\\n".toList = "\\\n\\\n".toList := by decide

end PromptAudit.Rule
