import PromptAudit.Text.Lines

namespace PromptAudit.Text

theorem trim_of_blank {t : Text} (h : blank t = true) : trim t = [] := by
  rw [trim, (trimLeft_eq_nil_iff t).mpr h]
  rfl

theorem blank_readLineFeeds {t : Text} (h : blank t = true) : blank (readLineFeeds t) = true := by
  fun_induction readLineFeeds t with
  | case1 => exact h
  | case2 r ih => simp [blank, isBlank, within, blankRuns] at h
  | case3 c r _ ih =>
    simp only [blank, List.all_cons, Bool.and_eq_true] at h ih ⊢
    exact ⟨h.1, ih h.2⟩

theorem blank_of_mem_pieces {sep : Char → Bool} {t piece : Text} (h : blank t = true)
    (listed : piece ∈ pieces sep t) : blank piece = true := by
  unfold pieces at listed
  induction t generalizing piece with
  | nil =>
    rw [List.mem_singleton.mp listed]
    rfl
  | cons c r ih =>
    simp only [blank, List.all_cons, Bool.and_eq_true] at h
    unfold cut at listed
    split at listed
    · rcases List.mem_cons.mp listed with rfl | later
      · rfl
      · exact ih h.2 later
    · rcases List.mem_cons.mp listed with rfl | later
      · simp only [blank, List.all_cons, Bool.and_eq_true]
        exact ⟨h.1, ih h.2 List.mem_cons_self⟩
      · exact ih h.2 (List.mem_cons_of_mem _ later)

section Margins

variable {left right t : Text}

theorem trimLeft_append_left (h : blank left = true) : trimLeft (left ++ t) = trimLeft t :=
  List.dropWhile_append_of_pos (List.all_eq_true.mp h)

theorem trimRight_append_right (h : blank right = true) : trimRight (t ++ right) = trimRight t := by
  have mirrored : blank right.reverse = true := by rw [blank, List.all_reverse]; exact h
  rw [trimRight, List.reverse_append, trimLeft_append_left mirrored, trimRight]

theorem trimLeft_append_of_not_blank (h : blank t = false) :
    trimLeft (t ++ right) = trimLeft t ++ right := by
  have kept : trimLeft t ≠ [] := fun none => by
    rw [(trimLeft_eq_nil_iff t).mp none] at h
    cases h
  rw [trimLeft, List.dropWhile_append, if_neg]
  · rfl
  · simpa [trimLeft] using kept

/-- White space around a text does not show once it is trimmed. -/
theorem trim_margins (before : blank left = true) (after : blank right = true) :
    trim (left ++ t ++ right) = trim t := by
  rw [trim, trim, List.append_assoc, trimLeft_append_left before]
  by_cases h : blank t = true
  · have all : blank (t ++ right) = true := by
      rw [blank, List.all_append, Bool.and_eq_true]
      exact ⟨h, after⟩
    rw [(trimLeft_eq_nil_iff t).mpr h, (trimLeft_eq_nil_iff _).mpr all]
  · rw [trimLeft_append_of_not_blank (eq_false_of_ne_true h), trimRight_append_right after]

end Margins

end PromptAudit.Text
