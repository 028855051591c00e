import PromptAudit.Proofs.Text.Pieces

namespace PromptAudit.Text

theorem occurs_iff (needle s : Text) : occurs needle s = true ↔ needle <:+: s := by
  induction s with
  | nil => simp [occurs]
  | cons c r ih =>
    simp only [occurs, Bool.or_eq_true, ih, List.isPrefixOf_iff_prefix, List.infix_cons_iff]

section Pair

variable {a b c : Char} {t : Text}

theorem pair_prefix_cons_iff : [a, b] <+: c :: t ↔ c = a ∧ t.head? = some b := by
  rw [List.cons_prefix_cons]
  refine and_congr eq_comm ?_
  cases t with
  | nil => simp
  | cons d t => simp [List.cons_prefix_cons, eq_comm]

/-- A text is free of two characters in a row unless it starts with them or they come later. -/
theorem not_pair_infix_cons_iff :
    ¬ [a, b] <:+: c :: t ↔ ¬ (c = a ∧ t.head? = some b) ∧ ¬ [a, b] <:+: t := by
  rw [List.infix_cons_iff, pair_prefix_cons_iff, not_or]

end Pair

section Separator

variable {sep : Char} {needle a b : Text}

/-- A text without the separator cannot begin before one and end behind it. -/
theorem prefix_append_sep_iff (free : sep ∉ needle) :
    needle <+: a ++ sep :: b ↔ needle <+: a := by
  refine ⟨fun h => ?_, fun h => h.trans (List.prefix_append _ _)⟩
  induction a generalizing needle with
  | nil =>
    cases needle with
    | nil => exact List.nil_prefix
    | cons d needle =>
      obtain ⟨rfl, -⟩ := List.cons_prefix_cons.mp h
      exact absurd List.mem_cons_self free
  | cons c a ih =>
    cases needle with
    | nil => exact List.nil_prefix
    | cons d needle =>
      obtain ⟨rfl, later⟩ := List.cons_prefix_cons.mp h
      exact List.cons_prefix_cons.mpr ⟨rfl, ih (fun inside => free (.tail _ inside)) later⟩

theorem infix_append_sep_iff (free : sep ∉ needle) :
    needle <:+: a ++ sep :: b ↔ needle <:+: a ∨ needle <:+: b := by
  induction a with
  | nil =>
    rw [List.nil_append, List.infix_cons_iff, ← List.nil_append (sep :: b),
      prefix_append_sep_iff free, List.prefix_nil, List.infix_nil]
  | cons c a ih =>
    rw [List.cons_append, List.infix_cons_iff, ih, ← List.cons_append, prefix_append_sep_iff free,
      List.infix_cons_iff, or_assoc]

/-- A text without the separator occurs in what is joined by it just where it occurs in a part. -/
theorem infix_join_iff {texts : List Text} (filled : needle ≠ []) (free : sep ∉ needle) :
    needle <:+: join [sep] texts ↔ ∃ t ∈ texts, needle <:+: t := by
  induction texts with
  | nil => simpa [join] using filled
  | cons t texts ih =>
    cases texts with
    | nil => simp [join]
    | cons u more =>
      rw [join_cons_cons, List.singleton_append, infix_append_sep_iff free, ih]
      simp only [List.mem_cons, exists_eq_or_imp]

end Separator

end PromptAudit.Text
