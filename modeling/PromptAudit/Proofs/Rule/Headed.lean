import PromptAudit.Proofs.Text.Lines
import PromptAudit.Proofs.Text.Pattern
import PromptAudit.Rule.Basic

namespace PromptAudit

open Text

/-- A headed line starts with the marks, and white space stands right behind them. -/
theorem isHeaded_iff {marks line : Text} : isHeaded marks line = true ↔
    ∃ c rest, line = marks ++ c :: rest ∧ isBlank c = true := by
  rw [isHeaded, Bool.and_eq_true, List.isPrefixOf_iff_prefix]
  constructor
  · intro headed
    obtain ⟨⟨after, rfl⟩, next⟩ := headed
    rw [List.drop_left, Option.any_eq_true] at next
    obtain ⟨c, first, blank⟩ := next
    obtain ⟨rest, rfl⟩ := List.head?_eq_some_iff.mp first
    exact ⟨c, rest, rfl, blank⟩
  · intro headed
    obtain ⟨c, rest, rfl, blank⟩ := headed
    refine ⟨List.prefix_append marks _, ?_⟩
    rw [List.drop_left]
    exact blank

/-- Marks, one or more characters of white space and one or more of anything within the line. -/
def headedPattern (marks : Text) : Pattern :=
  marks.foldr (fun mark => .both (.one (· = mark)))
    (.both (.run isBlank) (.run (· ≠ '\n')))

theorem readings_headed (marks line : Text) :
    (headedPattern marks).readings ⟨line, []⟩ =
      if marks.isPrefixOf line then
        (headedPattern []).readings ⟨line.drop marks.length, []⟩
      else [] := by
  induction marks generalizing line with
  | nil => rfl
  | cons mark marks ih =>
    cases line with
    | nil => rfl
    | cons c line =>
      have rest := ih line
      by_cases same : c = mark
      · subst same
        simpa [headedPattern, Pattern.readings] using rest
      · simp [headedPattern, Pattern.readings, same, Ne.symm same]

theorem readings_gap (rest : Text) : (headedPattern []).readings ⟨rest, []⟩ =
    (leavings isBlank rest).flatMap fun r =>
      (leavings (· ≠ '\n') r).map fun behind => ⟨behind, []⟩ := by
  simp only [headedPattern, List.foldr_nil, Pattern.readings, List.flatMap_map]

/-- Behind white space a trimmed line has something else to show, so there is text to match. -/
theorem readings_gap_ne_nil_iff {line start rest : Text} (trimmed : trim line = start ++ rest) :
    (headedPattern []).readings ⟨rest, []⟩ ≠ [] ↔ rest.head?.any isBlank = true := by
  cases rest with
  | nil => exact iff_of_false (fun read => read rfl) (by simp)
  | cons c r =>
    by_cases gap : isBlank c = true
    · refine iff_of_true ?_ gap
      obtain ⟨others, widest, -⟩ := exists_leavings (s := r) gap
      cases text : r.dropWhile isBlank with
      | nil =>
        have none : c :: r = [] := by
          refine eq_nil_of_trim trimmed ?_
          rw [blank_cons, gap, (trimLeft_eq_nil_iff r).mp text]
          rfl
        cases none
      | cons d z =>
        have shown : isBlank d = false := not_blank_of_trimLeft text
        have within : d ≠ '\n' := by
          rintro rfl
          cases shown
        have admitted : decide (d ≠ '\n') = true := decide_eq_true within
        obtain ⟨fewer, longest, -⟩ := @exists_leavings (· ≠ '\n') d z admitted
        rw [readings_gap, widest, text, List.flatMap_cons, longest, List.map_cons,
          List.cons_append]
        exact List.cons_ne_nil _ _
    · refine iff_of_false (fun read => read ?_) gap
      rw [readings_gap, leavings_of_not (eq_false_of_ne_true gap), List.flatMap_nil]

/-- A trimmed line is headed just where the pattern matches at its start. -/
theorem first_headed_isSome (marks line : Text) :
    ((headedPattern marks).first (trim line)).isSome = isHeaded marks (trim line) := by
  rw [Pattern.first, readings_headed, isHeaded]
  by_cases marked : marks.isPrefixOf (trim line) = true
  · obtain ⟨rest, split⟩ := List.isPrefixOf_iff_prefix.mp marked
    have gap := readings_gap_ne_nil_iff split.symm
    rw [if_pos marked, marked, ← split, List.drop_left, Bool.true_and]
    rw [Bool.eq_iff_iff, ← gap, List.isSome_head?]
  · rw [if_neg marked, eq_false_of_ne_true marked]
    rfl

end PromptAudit
