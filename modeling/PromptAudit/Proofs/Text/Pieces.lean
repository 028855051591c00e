import PromptAudit.Text.Basic

namespace PromptAudit.Text

variable {sep : Char → Bool} {t u : Text} {c : Char}

theorem pieces_of_free (free : ∀ d ∈ t, sep d = false) : pieces sep t = [t] := by
  induction t with
  | nil => rfl
  | cons d t ih =>
    obtain ⟨plain, free⟩ := List.forall_mem_cons.mp free
    have rest := ih free
    rw [pieces, List.cons_eq_cons] at rest
    simp [pieces, cut, plain, rest.1, rest.2]

/-- A separator divides a text into the pieces before it and the pieces behind it. -/
theorem pieces_append_sep (ends : sep c = true) :
    pieces sep (t ++ c :: u) = pieces sep t ++ pieces sep u := by
  induction t with
  | nil => simp [pieces, cut, ends]
  | cons d t ih =>
    simp only [pieces, List.cons_append, List.cons.injEq] at ih
    by_cases h : sep d = true <;> simp [pieces, cut, h, ih.1, ih.2]

/-- The first piece ends before the first separator. -/
theorem pieces_append_cons (free : ∀ d ∈ t, sep d = false) (ends : sep c = true) :
    pieces sep (t ++ c :: u) = t :: pieces sep u := by
  rw [pieces_append_sep ends, pieces_of_free free, List.singleton_append]

theorem length_pieces : (pieces sep t).length = t.countP sep + 1 := by
  induction t with
  | nil => rfl
  | cons d t ih =>
    simp only [pieces, List.length_cons] at ih
    by_cases h : sep d = true <;> simp [pieces, cut, h] <;> omega

theorem join_cons_cons (sep t u : Text) (more : List Text) :
    join sep (t :: u :: more) = t ++ (sep ++ join sep (u :: more)) := by
  rw [join, List.append_assoc]
  exact List.cons_ne_nil u more

/-- Texts without separators are read back from where they are joined by one. -/
theorem pieces_join {texts : List Text} (ends : sep c = true) (some : texts ≠ [])
    (free : ∀ t ∈ texts, ∀ d ∈ t, sep d = false) : pieces sep (join [c] texts) = texts := by
  induction texts with
  | nil => exact absurd rfl some
  | cons t rest ih =>
    obtain ⟨first, later⟩ := List.forall_mem_cons.mp free
    cases rest with
    | nil => exact pieces_of_free first
    | cons u more =>
      rw [join_cons_cons, List.singleton_append, pieces_append_cons first ends,
        ih (List.cons_ne_nil u more) later]

/-- A text is what its pieces come to when they are joined again. -/
theorem join_pieces (only : ∀ d, sep d = true ↔ d = c) (t : Text) : join [c] (pieces sep t) = t := by
  induction t with
  | nil => rfl
  | cons d t ih =>
    by_cases ends : sep d = true
    · have first : pieces sep (d :: t) = [] :: pieces sep t := by simp [pieces, cut, ends]
      rw [first, pieces, join_cons_cons, ← pieces, ih, (only d).mp ends]
      rfl
    · have first : pieces sep (d :: t) = (d :: (cut sep t).1) :: (cut sep t).2 := by
        simp [pieces, cut, ends]
      rw [pieces] at ih
      rw [first]
      cases later : (cut sep t).2 with
      | nil =>
        rw [later] at ih
        exact congrArg (d :: ·) ih
      | cons u more =>
        rw [later, join_cons_cons] at ih
        rw [join_cons_cons, List.cons_append, ih]

theorem free_of_mem_pieces {piece : Text} (listed : piece ∈ pieces sep t) :
    ∀ d ∈ piece, sep d = false := by
  induction t generalizing piece with
  | nil => simp_all [pieces, cut]
  | cons d t ih =>
    simp only [pieces, List.mem_cons] at ih
    unfold pieces cut at listed
    split at listed
    · rcases List.mem_cons.mp listed with first | later
      · simp [first]
      · exact ih (List.mem_cons.mp later)
    · rename_i plain
      rcases List.mem_cons.mp listed with first | later
      · rw [first, List.forall_mem_cons]
        exact ⟨eq_false_of_ne_true plain, ih (.inl rfl)⟩
      · exact ih (.inr later)

end PromptAudit.Text
