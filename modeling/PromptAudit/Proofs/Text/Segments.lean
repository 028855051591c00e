import PromptAudit.Policy
import PromptAudit.Proofs.Text.Occurrence

namespace PromptAudit.Text

def doubleColon : Text := [':', ':']

/-- A text divided at its double colons from the left: each piece but the last one ends where the
first double colon starts that is left. -/
inductive Splits : Text → List Text → Prop
  | whole {t : Text} (free : ¬ doubleColon <:+: t) : Splits t [t]
  | cut {piece rest : Text} {pieces : List Text} (first : ¬ doubleColon <:+: piece ++ [':'])
      (later : Splits rest pieces) : Splits (piece ++ (doubleColon ++ rest)) (piece :: pieces)

/-- The name of a constant has these segments: its pieces without the empty ones. -/
def Matches (name : Text) (path : List Text) : Prop :=
  ∃ pieces, Splits name pieces ∧ pieces.filter (fun s => !s.isEmpty) = path

/-- Not empty and without colons, as a single segment is. -/
def IsSegment (s : Text) : Prop := s ≠ [] ∧ ':' ∉ s

instance (s : Text) : Decidable (IsSegment s) := inferInstanceAs (Decidable (s ≠ [] ∧ ':' ∉ s))

/-- A name that is written from its segments, with double colons between them and, for a name that
is looked up from the top, before them. -/
inductive Qualified (segments : List Text) : Text → Prop
  | relative : Qualified segments (join doubleColon segments)
  | top : Qualified segments (doubleColon ++ join doubleColon segments)

variable {t piece rest : Text} {pieces : List Text}

theorem not_doubleColon_infix_cons_iff {c : Char} :
    ¬ doubleColon <:+: c :: t ↔ ¬ (c = ':' ∧ t.head? = some ':') ∧ ¬ doubleColon <:+: t :=
  not_pair_infix_cons_iff

theorem cutColons_doubleColon (rest : Text) :
    cutColons (doubleColon ++ rest) = ([], (cutColons rest).1 :: (cutColons rest).2) := rfl

theorem cutColons_cons {c : Char} (other : ¬ (c = ':' ∧ t.head? = some ':')) :
    cutColons (c :: t) = (c :: (cutColons t).1, (cutColons t).2) := by
  rw [cutColons]
  rintro r rfl rfl
  exact other ⟨rfl, rfl⟩

theorem cutColons_of_free (free : ¬ doubleColon <:+: t) : cutColons t = (t, []) := by
  induction t with
  | nil => rfl
  | cons c t ih =>
    obtain ⟨other, free⟩ := not_doubleColon_infix_cons_iff.mp free
    rw [cutColons_cons other, ih free]

theorem head?_append_colon (piece rest : Text) :
    (piece ++ (doubleColon ++ rest)).head? = (piece ++ [':']).head? := by
  cases piece <;> rfl

theorem cutColons_append (first : ¬ doubleColon <:+: piece ++ [':']) (rest : Text) :
    cutColons (piece ++ (doubleColon ++ rest)) =
      (piece, (cutColons rest).1 :: (cutColons rest).2) := by
  induction piece with
  | nil => exact cutColons_doubleColon rest
  | cons c piece ih =>
    rw [List.cons_append] at first ⊢
    obtain ⟨other, first⟩ := not_doubleColon_infix_cons_iff.mp first
    rw [← head?_append_colon piece rest] at other
    rw [cutColons_cons other, ih first]

/-- A character before a text belongs to its first piece, unless it ends a double colon. -/
theorem Splits.cons {c : Char} (other : ¬ (c = ':' ∧ t.head? = some ':'))
    (splits : Splits t (piece :: pieces)) : Splits (c :: t) ((c :: piece) :: pieces) := by
  cases splits with
  | whole free => exact .whole (not_doubleColon_infix_cons_iff.mpr ⟨other, free⟩)
  | @cut _ rest _ first later =>
    rw [head?_append_colon] at other
    exact @Splits.cut (c :: piece) rest _ (not_doubleColon_infix_cons_iff.mpr ⟨other, first⟩) later

theorem splits_cutColons (t : Text) : Splits t ((cutColons t).1 :: (cutColons t).2) := by
  fun_induction cutColons t with
  | case1 => exact .whole (by decide)
  | case2 r divided ih => exact @Splits.cut [] r _ (by decide) ih
  | case3 c r other divided ih =>
    refine .cons (fun double => ?_) ih
    obtain ⟨rfl, next⟩ := double
    obtain ⟨later, rfl⟩ := List.head?_eq_some_iff.mp next
    exact other later rfl rfl

/-- There is one way to divide a text. -/
theorem splits_iff : Splits t pieces ↔ (cutColons t).1 :: (cutColons t).2 = pieces := by
  constructor
  · intro splits
    induction splits with
    | whole free => rw [cutColons_of_free free]
    | cut first _ ih => rw [cutColons_append first, ih]
  · rintro rfl
    exact splits_cutColons t

theorem matches_iff {name : Text} {path : List Text} :
    Matches name path ↔ segments name = path := by
  simp only [Matches, splits_iff, exists_eq_left']
  rfl

theorem not_doubleColon_infix_of_isSegment (h : IsSegment piece) :
    ¬ doubleColon <:+: piece ++ [':'] := by
  intro inside
  have once : List.count ':' (piece ++ [':']) = 1 := by
    rw [List.count_append, List.count_eq_zero.mpr h.2]
    rfl
  have twice : List.count ':' doubleColon ≤ List.count ':' (piece ++ [':']) :=
    inside.sublist.count_le ':'
  rw [once] at twice
  exact absurd twice (by decide)

theorem segments_append (h : IsSegment piece) (rest : Text) :
    segments (piece ++ (doubleColon ++ rest)) = piece :: segments rest := by
  rw [segments, cutColons_append (not_doubleColon_infix_of_isSegment h),
    List.filter_cons_of_pos (by simpa using h.1)]
  rfl

theorem segments_top (rest : Text) : segments (doubleColon ++ rest) = segments rest := rfl

theorem segments_of_isSegment (h : IsSegment piece) : segments piece = [piece] := by
  have free : ¬ doubleColon <:+: piece := fun inside =>
    not_doubleColon_infix_of_isSegment h (inside.trans (List.prefix_append _ _).isInfix)
  rw [segments, cutColons_of_free free, List.filter_cons_of_pos (by simpa using h.1)]
  rfl

/-- The segments of a name are read back from how it is written. -/
theorem segments_join {path : List Text} (h : ∀ s ∈ path, IsSegment s) :
    segments (join doubleColon path) = path := by
  induction path with
  | nil => rfl
  | cons s path ih =>
    obtain ⟨first, later⟩ := List.forall_mem_cons.mp h
    cases path with
    | nil => exact segments_of_isSegment first
    | cons next path =>
      rw [join_cons_cons, segments_append first, ih later]

theorem segments_of_qualified {path : List Text} {name : Text} (h : ∀ s ∈ path, IsSegment s)
    (written : Qualified path name) : segments name = path := by
  cases written with
  | relative => exact segments_join h
  | top => rw [segments_top, segments_join h]

/-- A division only leaves colons out. -/
theorem Splits.mem (splits : Splits t pieces) {c : Char} {s : Text} (listed : s ∈ pieces)
    (inside : c ∈ s) : c ∈ t := by
  induction splits with
  | whole => exact List.mem_singleton.mp listed ▸ inside
  | cut _ _ ih =>
    rcases List.mem_cons.mp listed with rfl | later
    · exact List.mem_append_left _ inside
    · exact List.mem_append_right _ (List.mem_append_right _ (ih later))

theorem mem_of_matches {name : Text} {path : List Text} (h : Matches name path) {s : Text}
    {c : Char} (listed : s ∈ path) (inside : c ∈ s) : c ∈ name := by
  obtain ⟨pieces, splits, rfl⟩ := h
  exact splits.mem (List.mem_filter.mp listed).1 inside

end PromptAudit.Text
