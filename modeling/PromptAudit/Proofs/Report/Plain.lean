import Mathlib
import PromptAudit.Proofs.Text.Pieces
import PromptAudit.Report.Plain

namespace PromptAudit

/-- No line feed stands in a path, an error or a message. -/
structure FileReport.Unbroken (f : FileReport) : Prop where
  path : '\n' ∉ f.path
  error (e : Text) (told : f.error = some e) : '\n' ∉ e
  message (x : Finding) (found : x ∈ f.findings) : '\n' ∉ x.message
  place (x : Finding) (found : x ∈ f.findings) (p : Text) (known : x.path = some p) : '\n' ∉ p

instance (f : FileReport) : Decidable f.Unbroken :=
  decidable_of_iff ('\n' ∉ f.path ∧ (∀ e ∈ f.error, '\n' ∉ e) ∧
      (∀ x ∈ f.findings, '\n' ∉ x.message) ∧ ∀ x ∈ f.findings, ∀ p ∈ x.path, '\n' ∉ p)
    ⟨fun h => ⟨h.1, h.2.1, h.2.2.1, h.2.2.2⟩, fun h => ⟨h.path, h.error, h.message, h.place⟩⟩

namespace Report

variable (r : Report)

/-- How many files have an error. -/
def failedCount : Nat := r.countP FileReport.failed

/-- How many findings the files have together. -/
def foundCount : Nat := (r.map (·.findings.length)).sum

/-- A summary of so many files with so many findings, of which so many failed. -/
def summaryOf (files found failed : Nat) : Text :=
  plural files "file".toList ++ " inspected, ".toList ++ plural found "finding".toList ++
    if 0 < failed then ", ".toList ++ Text.ofNat failed ++ " failed".toList else []

theorem length_failedFiles : r.failedFiles.length = r.failedCount :=
  List.countP_eq_length_filter.symm

theorem length_findings : r.findings.length = r.foundCount := List.length_flatMap

theorem failedFiles_isEmpty : r.failedFiles.isEmpty = true ↔ ¬ 0 < r.failedCount := by
  rw [List.isEmpty_iff, ← List.length_eq_zero_iff, length_failedFiles, Nat.not_lt, Nat.le_zero]

theorem findings_isEmpty : r.findings.isEmpty = true ↔ ¬ 0 < r.foundCount := by
  rw [List.isEmpty_iff, ← List.length_eq_zero_iff, length_findings, Nat.not_lt, Nat.le_zero]

theorem summary_eq : r.summary = summaryOf r.length r.foundCount r.failedCount := by
  simp only [summary, summaryOf, failedFiles_isEmpty, ite_not, length_findings, length_failedFiles]

theorem exitCode_eq :
    r.exitCode = if 0 < r.failedCount then 2 else if 0 < r.foundCount then 1 else 0 := by
  simp only [exitCode, Bool.not_eq_true', ← Bool.not_eq_true, failedFiles_isEmpty, findings_isEmpty,
    not_not]

/-- A file has a line for its error and one for each finding. -/
theorem length_fileLines (f : FileReport) :
    (fileLines f).length = (if f.failed then 1 else 0) + f.findings.length := by
  rw [fileLines, List.length_append, List.length_map]
  split <;> rfl

theorem length_detailLines : r.detailLines.length = r.failedCount + r.foundCount := by
  rw [detailLines, failedCount, foundCount]
  induction r with
  | nil => rfl
  | cons f rest ih =>
    rw [List.flatMap_cons, List.length_append, ih, length_fileLines, List.countP_cons,
      List.map_cons, List.sum_cons]
    omega

theorem detailLines_isEmpty :
    r.detailLines.isEmpty = true ↔ r.failedCount + r.foundCount = 0 := by
  rw [List.isEmpty_iff, ← List.length_eq_zero_iff, length_detailLines]

/-- The lines of a report, the last of which is the summary. -/
def lines : List Text :=
  r.detailLines ++ (if r.failedCount + r.foundCount = 0 then [] else [[]]) ++
    [summaryOf r.length r.foundCount r.failedCount]

theorem plain_eq : r.plain = Text.join ['\n'] r.lines := by
  simp only [plain, lines, detailLines_isEmpty, summary_eq]

theorem feed_not_mem_ofNat (n : Nat) : '\n' ∉ Text.ofNat n := by
  intro feed
  have digit := Nat.isDigit_of_mem_toDigits (by decide) (by decide) feed
  exact absurd digit (by decide)

theorem feed_not_mem_ofInt (n : Int) : '\n' ∉ Text.ofInt n := by
  rw [Text.ofInt, List.mem_append, not_or]
  refine ⟨?_, feed_not_mem_ofNat _⟩
  split <;> decide

theorem feed_not_mem_name (rule : RuleId) : '\n' ∉ rule.name := by cases rule <;> decide

theorem feed_not_mem_summaryOf (files found failed : Nat) : '\n' ∉ summaryOf files found failed := by
  have counted (n : Nat) {noun : Text} (h : '\n' ∉ noun) : '\n' ∉ plural n noun := by
    have plain : '\n' ∉ (if n = 1 then [] else ['s']) := by split <;> decide
    simp [plural, feed_not_mem_ofNat, h, plain]
  have trouble : '\n' ∉ (if 0 < failed then ", ".toList ++ Text.ofNat failed ++ " failed".toList
      else []) := by
    split
    · simp [feed_not_mem_ofNat]
    · exact List.not_mem_nil
  simp only [summaryOf, List.mem_append, not_or]
  exact ⟨⟨⟨counted files (by decide), by decide⟩, counted found (by decide)⟩, trouble⟩

variable {r}

theorem feed_not_mem_diagnostic {f : FileReport} (unbroken : f.Unbroken) {x : Finding}
    (found : x ∈ f.findings) : '\n' ∉ x.diagnostic := by
  have line (p : Text) (h : '\n' ∉ p) : '\n' ∉ p ++ Text.ofInt x.span.startLine ++
      ':' :: Text.ofInt (x.span.startColumn + 1) ++ ": ".toList ++ x.rule.name ++ ": ".toList ++
        x.message := by
    simp [h, feed_not_mem_ofInt, feed_not_mem_name, unbroken.message x found]
  refine line _ ?_
  cases known : x.path with
  | none => exact List.not_mem_nil
  | some p =>
    have place := unbroken.place x found p known
    dsimp only
    split
    · exact List.not_mem_nil
    · simp [place]

theorem feed_not_mem_fileLines {f : FileReport} (unbroken : f.Unbroken) :
    ∀ line ∈ fileLines f, '\n' ∉ line := by
  intro line listed
  rcases List.mem_append.mp listed with trouble | finding
  · split at trouble
    · cases List.mem_singleton.mp trouble
      cases told : f.error with
      | none => simp [unbroken.path]
      | some e => simp [unbroken.path, unbroken.error e told]
    · exact absurd trouble List.not_mem_nil
  · obtain ⟨x, found, rfl⟩ := List.mem_map.mp finding
    exact feed_not_mem_diagnostic unbroken found

theorem pieces_plain (unbroken : ∀ f ∈ r, f.Unbroken) :
    Text.pieces (· == '\n') r.plain = r.lines := by
  have feedless : ∀ line ∈ r.lines, '\n' ∉ line := by
    intro line listed
    rcases List.mem_append.mp listed with above | last
    · rcases List.mem_append.mp above with detail | gap
      · obtain ⟨f, inside, shown⟩ := List.mem_flatMap.mp detail
        exact feed_not_mem_fileLines (unbroken f inside) line shown
      · split at gap
        · exact absurd gap List.not_mem_nil
        · exact List.mem_singleton.mp gap ▸ List.not_mem_nil
    · exact List.mem_singleton.mp last ▸ feed_not_mem_summaryOf _ _ _
  rw [plain_eq]
  refine Text.pieces_join rfl (by simp [lines]) fun line listed c inside => ?_
  rw [beq_eq_false_iff_ne]
  rintro rfl
  exact feedless line listed inside

end Report

end PromptAudit
