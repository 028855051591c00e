import PromptAudit.Text.Lines

namespace PromptAudit.Text

theorem flatten_feedLines (t : Text) : (feedLines t).flatten = t := by
  induction t with
  | nil => rfl
  | cons c r ih =>
    rw [feedLines]
    split
    · rw [List.flatten_cons, ih, List.singleton_append]
    · split <;> rename_i h <;> rw [h] at ih <;> simp [← ih]

theorem feedLines_ne_nil {t : Text} (h : t ≠ []) : feedLines t ≠ [] := by
  intro none
  have := flatten_feedLines t
  rw [none] at this
  exact h this.symm

/-- What stands behind a line feed is cut by itself. -/
theorem feedLines_append_feed (s u : Text) :
    feedLines (s ++ '\n' :: u) = feedLines (s ++ ['\n']) ++ feedLines u := by
  induction s with
  | nil => rfl
  | cons c s ih =>
    simp only [List.cons_append, feedLines]
    split
    · rw [ih, List.cons_append]
    · rw [ih]
      cases h : feedLines (s ++ ['\n']) with
      | nil => exact absurd h (feedLines_ne_nil (by simp))
      | cons line rest => rfl

theorem getLast?_feedLines_feed (s : Text) :
    ∃ line, (feedLines (s ++ ['\n'])).getLast? = some line ∧ line.getLast? = some '\n' := by
  induction s with
  | nil => exact ⟨['\n'], rfl, rfl⟩
  | cons c s ih =>
    obtain ⟨line, last, ends⟩ := ih
    simp only [List.cons_append, feedLines]
    cases h : feedLines (s ++ ['\n']) with
    | nil => exact absurd h (feedLines_ne_nil (by simp))
    | cons first rest =>
      rw [h] at last
      split
      · exact ⟨line, by rw [List.getLast?_cons_cons, last], ends⟩
      · cases rest with
        | nil =>
          rw [List.getLast?_singleton, Option.some.injEq] at last
          subst last
          refine ⟨c :: first, rfl, ?_⟩
          cases first with
          | nil => cases ends
          | cons d r => rw [List.getLast?_cons_cons, ends]
        | cons second others =>
          rw [List.getLast?_cons_cons] at last
          exact ⟨line, by rw [List.getLast?_cons_cons, last], ends⟩

end PromptAudit.Text
