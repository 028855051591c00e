import PromptAudit.Proofs.Text.Pieces
import PromptAudit.Text.Lower

namespace PromptAudit.Text

/-- What holds of all code points of the runs of white space holds of all white space. -/
theorem forall_isBlank {P : Char → Prop}
    (h : ∀ run ∈ blankRuns, ∀ k ≤ run.2 - run.1, P (Char.ofNat (run.1 + k))) {c : Char}
    (blank : isBlank c = true) : P c := by
  obtain ⟨run, listed, inside⟩ := List.any_eq_true.mp blank
  simp only [Bool.and_eq_true, decide_eq_true_eq] at inside
  have code : run.1 + (c.toNat - run.1) = c.toNat := by omega
  have holds := h run listed (c.toNat - run.1) (by omega)
  rwa [code, Char.ofNat_toNat] at holds

/-- White space has no case and no small form. -/
theorem lowerChar_of_isBlank {c : Char} (blank : isBlank c = true) :
    c ≠ 'Σ' ∧ lowerChar c = [c] ∧ isCaseIgnorable c = false ∧ isCased c = false :=
  forall_isBlank (P := fun c => c ≠ 'Σ' ∧ lowerChar c = [c] ∧ isCaseIgnorable c = false ∧
    isCased c = false) (by decide +kernel) blank

section Separator

variable {sep : Char} (blank : isBlank sep = true)
include blank

/-- A look ahead for a letter ends at white space as at the end of the text. -/
theorem meetsCased_append (a b : Text) : meetsCased (a ++ sep :: b) = meetsCased a := by
  obtain ⟨-, -, counts, uncased⟩ := lowerChar_of_isBlank blank
  induction a with
  | nil => simp [meetsCased, counts, uncased]
  | cons c a ih => rw [List.cons_append, meetsCased, ih, meetsCased]

theorem lowerFrom_append (inside : Bool) (a b : Text) :
    lowerFrom inside (a ++ sep :: b) = lowerFrom inside a ++ sep :: lowerFrom false b := by
  obtain ⟨other, small, counts, uncased⟩ := lowerChar_of_isBlank blank
  induction a generalizing inside with
  | nil => simp [lowerFrom, other, small, counts, uncased]
  | cons c a ih =>
    rw [List.cons_append, lowerFrom, meetsCased_append blank, ih, lowerFrom]
    exact (List.append_assoc _ _ _).symm

/-- No letter sees another one across white space, so the parts of a joined text have their own
small letters. -/
theorem lower_join (texts : List Text) :
    lower (join [sep] texts) = join [sep] (texts.map lower) := by
  induction texts with
  | nil => rfl
  | cons t texts ih =>
    cases texts with
    | nil => rfl
    | cons u more =>
      rw [join_cons_cons, List.singleton_append, lower, lowerFrom_append blank]
      rw [List.map_cons, List.map_cons, join_cons_cons, List.singleton_append, ← List.map_cons,
        ← ih]
      rfl

end Separator

/-- White space between texts does not make them show more. -/
theorem blank_join_eq_false_iff {sep : Char} (ends : isBlank sep = true) {texts : List Text} :
    blank (join [sep] texts) = false ↔ ∃ t ∈ texts, blank t = false := by
  induction texts with
  | nil => simp [join, blank]
  | cons t texts ih =>
    cases texts with
    | nil => simp [join]
    | cons u more =>
      have parts : blank (join [sep] (t :: u :: more)) =
          (blank t && blank (join [sep] (u :: more))) := by
        rw [join_cons_cons, List.singleton_append, blank, List.all_append, List.all_cons, ends,
          Bool.true_and]
        rfl
      rw [parts, Bool.and_eq_false_iff, ih]
      simp only [List.mem_cons, exists_eq_or_imp]

theorem lowerFrom_of_blank {inside : Bool} {t : Text} (h : blank t = true) :
    lowerFrom inside t = t := by
  induction t generalizing inside with
  | nil => rfl
  | cons c t ih =>
    simp only [blank, List.all_cons, Bool.and_eq_true] at h ih
    obtain ⟨other, small, -⟩ := lowerChar_of_isBlank h.1
    rw [lowerFrom, if_neg other, small, ih h.2]
    rfl

end PromptAudit.Text
