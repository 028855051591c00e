import PromptAudit.Proofs.Text.Feed
import PromptAudit.Proofs.Wording.Dedent
import PromptAudit.Proofs.Wording.Live

namespace PromptAudit

namespace Text

/-- The characters of a text that show. -/
def ink (t : Text) : Text := t.filter fun c => !isBlank c

theorem ink_append (s t : Text) : ink (s ++ t) = ink s ++ ink t := List.filter_append ..

theorem ink_eq_nil_iff {t : Text} : ink t = [] ↔ blank t = true := by
  simp [ink, blank, List.filter_eq_nil_iff]

theorem ink_drop {t : Text} {k : Nat} (h : blank (t.take k) = true) : ink (t.drop k) = ink t := by
  conv_rhs => rw [← List.take_append_drop k t]
  rw [ink_append, ink_eq_nil_iff.mpr h, List.nil_append]

end Text

namespace Wording

/-- What is known of a piece before the program runs. -/
def Piece.fixedText : Piece → Text
  | verbatim t => t
  | decoded t => t
  | live _ => []

/-- What shows of the known text of pieces. -/
def pieceInk (ps : List Piece) : Text := Text.ink (ps.flatMap Piece.fixedText)

theorem pieceInk_append (ps qs : List Piece) : pieceInk (ps ++ qs) = pieceInk ps ++ pieceInk qs := by
  rw [pieceInk, List.flatMap_append, Text.ink_append, pieceInk, pieceInk]

theorem pieceInk_cons (p : Piece) (ps : List Piece) :
    pieceInk (p :: ps) = Text.ink p.fixedText ++ pieceInk ps := by
  rw [pieceInk, List.flatMap_cons, Text.ink_append, pieceInk]

theorem pieceInk_flatten (lines : List Line) : pieceInk lines.flatten = lines.flatMap pieceInk := by
  induction lines with
  | nil => rfl
  | cons line lines ih => rw [List.flatten_cons, pieceInk_append, ih, List.flatMap_cons]

theorem pieceInk_breakLines (p : Piece) : pieceInk p.breakLines = Text.ink p.fixedText := by
  cases p with
  | verbatim t =>
    have joined : ((Text.feedLines t).map Piece.verbatim).flatMap Piece.fixedText = t := by
      rw [List.flatMap_map, List.flatMap_def]
      exact (congrArg List.flatten (List.map_id _)).trans (Text.flatten_feedLines t)
    rw [pieceInk, Piece.breakLines, joined, Piece.fixedText]
  | decoded t => simp [pieceInk, Piece.breakLines]
  | live s => simp [pieceInk, Piece.breakLines]

theorem pieceInk_splitLines (ps : List Piece) : pieceInk (splitLines ps).flatten = pieceInk ps := by
  rw [splitLines, flatten_gather]
  induction ps with
  | nil => rfl
  | cons p ps ih => rw [List.flatMap_cons, pieceInk_append, ih, pieceInk_breakLines, pieceInk_cons]

theorem pieceInk_dropFirstFeed (ps : List Piece) : pieceInk (dropFirstFeed ps) = pieceInk ps := by
  unfold dropFirstFeed
  split
  · rename_i t rest
    have feed : Text.ink ('\n' :: t) = Text.ink t := Text.ink_append ['\n'] t
    rw [pieceInk_cons, pieceInk_cons, Piece.fixedText, Piece.fixedText, feed]
  · rfl

theorem pieceInk_of_isTerminatorIndent {line : Line} (h : isTerminatorIndent line = true) :
    pieceInk line = [] := by
  rw [pieceInk, Text.ink_eq_nil_iff, Text.blank, List.all_flatMap, List.all_eq_true]
  intro p listed
  have only := List.all_eq_true.mp h p listed
  cases p with
  | verbatim t => exact (Bool.and_eq_true_iff.mp only).1
  | decoded t => simp [Piece.isBlank] at only
  | live s => rfl

theorem pieceInk_dropTerminator (lines : List Line) :
    pieceInk (dropTerminator lines).flatten = pieceInk lines.flatten := by
  unfold dropTerminator
  split
  · rename_i h
    obtain ⟨last, hlast, terminator⟩ := (Option.any_eq_true _ _).mp h
    obtain ⟨before, rfl⟩ := List.getLast?_eq_some_iff.mp hlast
    rw [List.dropLast_concat, List.flatten_append, List.flatten_singleton, pieceInk_append,
      pieceInk_of_isTerminatorIndent terminator, List.append_nil]
  · rfl

theorem pieceInk_outdent (m : Nat) (line : Line) : pieceInk (outdent m line) = pieceInk line := by
  induction line generalizing m with
  | nil => rfl
  | cons p rest ih =>
    cases p with
    | decoded t => rfl
    | live s => rfl
    | verbatim t =>
      have taken : Text.blank (t.take (min m (lead t))) = true :=
        List.all_eq_true.mpr fun c hc =>
          isBlank_of_isIndent (isIndent_of_mem_take (Nat.min_le_right ..) c hc)
      rw [outdent, pieceInk_cons, pieceInk_cons, Piece.fixedText, Piece.fixedText,
        Text.ink_drop taken]
      split
      · rw [ih]
      · rfl

theorem pieceInk_dedent (lines : List Line) :
    pieceInk (dedent lines).flatten = pieceInk lines.flatten := by
  rw [pieceInk_flatten, pieceInk_flatten, dedent, List.flatMap_map]
  exact List.flatMap_congr fun line _ => pieceInk_outdent _ line

theorem fixedText_join (t : Text) (w : Wording) : fixedText (join t w) = t ++ fixedText w := by
  cases w with
  | nil => rfl
  | cons f more => cases f <;> simp [join, fixedText, Fragment.fixedText]

theorem fixedText_merge (ps : List Piece) : fixedText (merge ps) = ps.flatMap Piece.fixedText := by
  have front (t : Text) {w : Wording} {rest : Text} (h : fixedText w = rest) :
      fixedText (if t.isEmpty then w else join t w) = t ++ rest := by
    split
    · rename_i empty
      rw [List.isEmpty_iff.mp empty, h, List.nil_append]
    · rw [fixedText_join, h]
  induction ps with
  | nil => rfl
  | cons p rest ih =>
    rw [List.flatMap_cons]
    cases p with
    | verbatim t => rw [merge_verbatim, front t ih, Piece.fixedText]
    | decoded t => rw [merge_decoded, front t ih, Piece.fixedText]
    | live s => exact ih

/-- Reading a heredoc body loses white space only. -/
theorem ink_ofHeredoc (squiggly : Bool) (ps : List Piece) :
    Text.ink (ofHeredoc squiggly ps).fixedText = pieceInk ps := by
  have lines : pieceInk (splitLines (dropFirstFeed ps)).flatten = pieceInk ps := by
    rw [pieceInk_splitLines, pieceInk_dropFirstFeed]
  rw [ofHeredoc_eq, fixedText_merge, ← pieceInk, content]
  split
  · rw [pieceInk_dedent, pieceInk_dropTerminator, lines]
  · rw [pieceInk_dropTerminator, lines]

end Wording

end PromptAudit
