import PromptAudit.Proofs.Rule.Headed
import PromptAudit.Proofs.Text.LineFeeds
import PromptAudit.Rule.Heading

namespace PromptAudit.Rule

open Text

variable {content front behind : Text}

/-- It does not matter that the margins of the whole content are cut off first. -/
theorem startsWithHeading_eq (content : Text) : startsWithHeading content =
    ((firstVisible (readLineFeeds content)).map trim).any (isHeaded ['#']) := by
  rw [← head?_lines_trim, startsWithHeading]
  cases lines (trim (readLineFeeds content)) <;> rfl

theorem startsWithHeading_eq_pattern (content : Text) : startsWithHeading content =
    (lines (trim (readLineFeeds content))).head?.any
      fun first => ((headedPattern ['#']).first (trim first)).isSome := by
  rw [startsWithHeading]
  cases lines (trim (readLineFeeds content)) with
  | nil => rfl
  | cons first later => exact (first_headed_isSome ['#'] first).symm

theorem startsWithHeading_iff : startsWithHeading content = true ↔
    ∃ line c rest, firstVisible (readLineFeeds content) = some line ∧
      trim line = '#' :: c :: rest ∧ isBlank c = true := by
  rw [startsWithHeading_eq, Option.any_map, Option.any_eq_true]
  constructor
  · rintro ⟨line, first, headed⟩
    obtain ⟨c, rest, split, gap⟩ := isHeaded_iff.mp headed
    exact ⟨line, c, rest, first, split, gap⟩
  · rintro ⟨line, c, rest, first, split, gap⟩
    exact ⟨line, first, isHeaded_iff.mpr ⟨c, rest, split, gap⟩⟩

theorem startsWithHeading_front (empty : blank (readLineFeeds front) = true) (content : Text) :
    startsWithHeading (front ++ content) = startsWithHeading content := by
  have apart : readLineFeeds (front ++ content) = readLineFeeds front ++ readLineFeeds content :=
    readLineFeeds_append fun torn => absurd torn (not_backslash_of_blank empty)
  rw [startsWithHeading_eq, startsWithHeading_eq, apart, firstVisible_append_of_blank empty]

theorem startsWithHeading_behind (shown : blank (readLineFeeds content) = false)
    (ends : ∀ c ∈ (readLineFeeds behind).head?, isLineEnd c = true) :
    startsWithHeading (content ++ behind) = startsWithHeading content := by
  have apart :
      readLineFeeds (content ++ behind) = readLineFeeds content ++ readLineFeeds behind := by
    refine readLineFeeds_append fun _ letter => ?_
    obtain ⟨r, rfl⟩ := List.head?_eq_some_iff.mp letter
    have first : (readLineFeeds ('n' :: r)).head? = some 'n' := by simp [readLineFeeds]
    exact absurd (ends 'n' first) (by decide)
  rw [startsWithHeading_eq, startsWithHeading_eq, apart, firstVisible_append shown ends]

/-- A content starts with a heading when the pattern for one matches its first line, that is when
the first of its lines that shows something is a hash mark and white space, and more. So neither
what shows nothing in front of that line nor anything behind its end has a say. -/
theorem first_visible_line_decides (content : Text) :
    (startsWithHeading content = (lines (trim (readLineFeeds content))).head?.any
      fun first => ((headedPattern ['#']).first (trim first)).isSome) ∧
    (startsWithHeading content = true ↔
      ∃ line c rest, firstVisible (readLineFeeds content) = some line ∧
        trim line = '#' :: c :: rest ∧ isBlank c = true) ∧
    (∀ front, blank (readLineFeeds front) = true →
      startsWithHeading (front ++ content) = startsWithHeading content) ∧
    ∀ behind, blank (readLineFeeds content) = false →
      (∀ c ∈ (readLineFeeds behind).head?, isLineEnd c = true) →
      startsWithHeading (content ++ behind) = startsWithHeading content :=
  ⟨startsWithHeading_eq_pattern content, startsWithHeading_iff,
    fun _ empty => startsWithHeading_front empty content,
    fun _ shown ends => startsWithHeading_behind shown ends⟩

/-- A heading behind a line feed in letters, a line separator and a tab, before a carriage
return and another line. -/
theorem indented_heading :
    startsWithHeading "\\n \u2028\t# a\r###\n".toList = true := by
  obtain ⟨-, decides, -, behind⟩ := first_visible_line_decides "# a".toList
  have headed : startsWithHeading "# a".toList = true :=
    decides.mpr ⟨"# a".toList, ' ', ['a'], by decide +kernel, by decide +kernel, by decide⟩
  have ends : ∀ c ∈ (readLineFeeds "\r###\n".toList).head?, isLineEnd c = true := by
    have first : (readLineFeeds "\r###\n".toList).head? = some '\r' := by decide +kernel
    rw [first]
    rintro _ ⟨⟩
    rfl
  have closed : startsWithHeading "# a\r###\n".toList = true :=
    (behind "\r###\n".toList (by decide +kernel) ends).trans headed
  obtain ⟨-, -, front, -⟩ := first_visible_line_decides "# a\r###\n".toList
  exact (front "\\n \u2028\t".toList (by decide +kernel)).trans closed

end PromptAudit.Rule
