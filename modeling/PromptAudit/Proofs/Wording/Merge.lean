import Mathlib.Data.List.Chain
import PromptAudit.Wording.Heredoc

namespace PromptAudit.Wording

/-- All that a string says, its interpolations by their source. -/
def text (w : Wording) : Text := w.flatMap Fragment.text

def texts (ps : List Piece) : Text := ps.flatMap Piece.text

@[simp] theorem texts_nil : texts [] = [] := rfl

@[simp] theorem texts_cons (p : Piece) (ps : List Piece) : texts (p :: ps) = p.text ++ texts ps := rfl

@[simp] theorem texts_append (ps qs : List Piece) : texts (ps ++ qs) = texts ps ++ texts qs :=
  List.flatMap_append

/-- Puts fixed text in front. -/
def join (t : Text) : Wording → Wording
  | .fixed u :: more => .fixed (t ++ u) :: more
  | more => .fixed t :: more

theorem merge_verbatim (t : Text) (rest : List Piece) :
    merge (.verbatim t :: rest) = if t.isEmpty then merge rest else join t (merge rest) := by
  rw [merge]
  split
  · rfl
  · cases merge rest with
    | nil => rfl
    | cons f more => cases f <;> rfl

theorem merge_decoded (t : Text) (rest : List Piece) :
    merge (.decoded t :: rest) = if t.isEmpty then merge rest else join t (merge rest) :=
  merge_verbatim t rest

theorem text_join (t : Text) (w : Wording) : text (join t w) = t ++ text w := by
  cases w with
  | nil => rfl
  | cons f more => cases f <;> simp [join, text, Fragment.text]

theorem fixed_mem_join {t s : Text} {w : Wording} (h : .fixed s ∈ join t w) :
    (∃ u, s = t ++ u) ∨ .fixed s ∈ w := by
  cases w with
  | nil =>
    cases List.mem_singleton.mp h
    exact .inl ⟨[], by simp⟩
  | cons f more =>
    cases f with
    | fixed u =>
      rcases List.mem_cons.mp h with same | later
      · cases same
        exact .inl ⟨u, rfl⟩
      · exact .inr (List.mem_cons_of_mem _ later)
    | live source =>
      rcases List.mem_cons.mp h with same | later
      · cases same
        exact .inl ⟨[], by simp⟩
      · exact .inr later

/-- No two fixed fragments touch. -/
def Parted (w : Wording) : Prop := w.IsChain fun f g => f.isLive = true ∨ g.isLive = true

theorem parted_join {t : Text} {w : Wording} (h : Parted w) : Parted (join t w) := by
  cases w with
  | nil => exact .singleton _
  | cons f more =>
    cases f with
    | live source => exact .cons_cons (.inr rfl) h
    | fixed u =>
      cases more with
      | nil => exact .singleton _
      | cons g others =>
        obtain ⟨touch, rest⟩ := List.isChain_cons_cons.mp h
        exact .cons_cons touch rest

theorem parted_live {s : Text} {w : Wording} (h : Parted w) : Parted (.live s :: w) := by
  cases w with
  | nil => exact .singleton _
  | cons f more => exact .cons_cons (.inl rfl) h

private theorem merge_spec (ps : List Piece) :
    text (merge ps) = texts ps ∧ (∀ s, .fixed s ∈ merge ps → s ≠ []) ∧ Parted (merge ps) := by
  have step (t : Text) {w : Wording} {rest : List Piece}
      (h : text w = texts rest ∧ (∀ s, .fixed s ∈ w → s ≠ []) ∧ Parted w) :
      text (if t.isEmpty then w else join t w) = t ++ texts rest ∧
        (∀ s, .fixed s ∈ (if t.isEmpty then w else join t w) → s ≠ []) ∧
        Parted (if t.isEmpty then w else join t w) := by
    obtain ⟨said, shown, parted⟩ := h
    split
    · rename_i empty
      rw [List.isEmpty_iff.mp empty]
      exact ⟨said, shown, parted⟩
    · rename_i some
      refine ⟨by rw [text_join, said], fun s hs => ?_, parted_join parted⟩
      rcases fixed_mem_join hs with ⟨u, rfl⟩ | inside
      · simp only [List.isEmpty_iff] at some
        simp [some]
      · exact shown s inside
  induction ps with
  | nil => exact ⟨rfl, fun s hs => absurd hs List.not_mem_nil, .nil⟩
  | cons p rest ih =>
    cases p with
    | verbatim t =>
      rw [merge_verbatim]
      exact step t ih
    | decoded t =>
      rw [merge_decoded]
      exact step t ih
    | live s =>
      obtain ⟨said, shown, parted⟩ := ih
      refine ⟨?_, fun u hu => ?_, parted_live parted⟩
      · rw [merge, texts_cons, ← said]
        rfl
      · rcases List.mem_cons.mp hu with other | later
        · cases other
        · exact shown u later

theorem text_merge (ps : List Piece) : text (merge ps) = texts ps := (merge_spec ps).1

theorem ne_nil_of_mem_merge {ps : List Piece} {s : Text} (h : .fixed s ∈ merge ps) : s ≠ [] :=
  (merge_spec ps).2.1 s h

theorem parted_merge (ps : List Piece) : Parted (merge ps) := (merge_spec ps).2.2

end PromptAudit.Wording
