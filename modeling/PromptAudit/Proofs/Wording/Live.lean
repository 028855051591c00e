import PromptAudit.Proofs.Wording.Merge

namespace PromptAudit

/-- The source of an interpolation. -/
def Fragment.source? : Fragment → Option Text
  | fixed _ => none
  | live s => some s

namespace Wording

/-- The interpolations of a string, in order. -/
def sources (w : Wording) : List Text := w.filterMap Fragment.source?

@[simp] theorem sources_fixed (t : Text) (w : Wording) : sources (.fixed t :: w) = sources w := rfl

@[simp] theorem sources_live (s : Text) (w : Wording) :
    sources (.live s :: w) = s :: sources w := rfl

theorem sources_append (v w : Wording) : sources (v ++ w) = sources v ++ sources w :=
  List.filterMap_append

theorem hasLive_iff {w : Wording} : hasLive w = true ↔ sources w ≠ [] := by
  induction w with
  | nil => simp [hasLive, sources]
  | cons f w ih =>
    cases f with
    | fixed t => exact ih
    | live s => simp [hasLive, Fragment.isLive]

def Piece.source? : Piece → Option Text
  | live s => some s
  | _ => none

/-- The interpolations among the parts of a heredoc body, in order. -/
def pieceSources (pieces : List Piece) : List Text := pieces.filterMap Piece.source?

@[simp] theorem pieceSources_verbatim (t : Text) (ps : List Piece) :
    pieceSources (.verbatim t :: ps) = pieceSources ps := rfl

@[simp] theorem pieceSources_decoded (t : Text) (ps : List Piece) :
    pieceSources (.decoded t :: ps) = pieceSources ps := rfl

@[simp] theorem pieceSources_live (s : Text) (ps : List Piece) :
    pieceSources (.live s :: ps) = s :: pieceSources ps := rfl

theorem pieceSources_append (ps qs : List Piece) :
    pieceSources (ps ++ qs) = pieceSources ps ++ pieceSources qs := List.filterMap_append

/-- Fixed text put in front joins the fixed text that it touches. -/
theorem sources_join (t : Text) (w : Wording) : sources (join t w) = sources w := by
  cases w with
  | nil => rfl
  | cons f more => cases f <;> rfl

theorem sources_merge (ps : List Piece) : sources (merge ps) = pieceSources ps := by
  induction ps with
  | nil => rfl
  | cons p rest ih =>
    cases p with
    | live s => rw [merge, sources_live, pieceSources_live, ih]
    | verbatim t =>
      rw [merge_verbatim, pieceSources_verbatim, ← ih]
      split
      · rfl
      · exact sources_join t _
    | decoded t =>
      rw [merge_decoded, pieceSources_decoded, ← ih]
      split
      · rfl
      · exact sources_join t _

theorem flatten_gather (ps : List Piece) : (gather ps).flatten = ps := by
  induction ps with
  | nil => rfl
  | cons p ps ih =>
    simp only [gather]
    split
    · rw [List.flatten_cons, ih, List.singleton_append]
    · split <;> rename_i h <;> rw [h] at ih <;> simp [← ih]

/-- The pieces of a heredoc body that are left to be joined. -/
def content (squiggly : Bool) (pieces : List Piece) : List Piece :=
  let lines := dropTerminator (splitLines (dropFirstFeed pieces))
  (if squiggly then dedent lines else lines).flatten

theorem ofHeredoc_eq (squiggly : Bool) (pieces : List Piece) :
    ofHeredoc squiggly pieces = merge (content squiggly pieces) := rfl

section Blind

variable {β : Type} {g : Piece → Option β} (blind : ∀ t, g (.verbatim t) = none)

include blind

theorem filterMap_breakLines (p : Piece) : p.breakLines.filterMap g = [p].filterMap g := by
  cases p with
  | verbatim t => simp [Piece.breakLines, blind, List.filterMap_map]
  | decoded t => rfl
  | live s => rfl

theorem filterMap_flatMap_breakLines (ps : List Piece) :
    (ps.flatMap Piece.breakLines).filterMap g = ps.filterMap g := by
  induction ps with
  | nil => rfl
  | cons p ps ih =>
    rw [List.flatMap_cons, List.filterMap_append, ih, filterMap_breakLines blind,
      ← List.filterMap_append, List.singleton_append]

theorem filterMap_dropFirstFeed (ps : List Piece) :
    (dropFirstFeed ps).filterMap g = ps.filterMap g := by
  unfold dropFirstFeed
  split
  · rw [List.filterMap_cons_none (blind _), List.filterMap_cons_none (blind _)]
  · rfl

theorem filterMap_of_isTerminatorIndent {line : Line} (h : isTerminatorIndent line = true) :
    line.filterMap g = [] := by
  rw [List.filterMap_eq_nil_iff]
  intro p hp
  have blank := List.all_eq_true.mp h p hp
  cases p with
  | verbatim t => exact blind t
  | decoded t => simp [Piece.isBlank] at blank
  | live s => simp [Piece.isBlank] at blank

/-- The line that is taken for the terminator's indentation holds verbatim text only. -/
theorem filterMap_dropTerminator (lines : List Line) :
    (dropTerminator lines).flatten.filterMap g = lines.flatten.filterMap g := by
  unfold dropTerminator
  split
  · rename_i h
    obtain ⟨last, hlast, terminator⟩ := (Option.any_eq_true _ _).mp h
    obtain ⟨before, rfl⟩ := List.getLast?_eq_some_iff.mp hlast
    rw [List.dropLast_concat, List.flatten_append, List.flatten_singleton, List.filterMap_append,
      filterMap_of_isTerminatorIndent blind terminator, List.append_nil]
  · rfl

theorem filterMap_outdent (margin : Nat) (line : Line) :
    (outdent margin line).filterMap g = line.filterMap g := by
  induction line generalizing margin with
  | nil => rfl
  | cons p rest ih =>
    cases p with
    | verbatim t =>
      rw [outdent, List.filterMap_cons_none (blind _), List.filterMap_cons_none (blind _)]
      split
      · exact ih _
      · rfl
    | decoded t => rfl
    | live s => rfl

theorem filterMap_dedent (lines : List Line) :
    (dedent lines).flatten.filterMap g = lines.flatten.filterMap g := by
  rw [List.filterMap_flatten, List.filterMap_flatten, dedent, List.map_map]
  congr 2
  funext line
  exact filterMap_outdent blind _ line

theorem filterMap_content (squiggly : Bool) (pieces : List Piece) :
    (content squiggly pieces).filterMap g = pieces.filterMap g := by
  have lines : (splitLines (dropFirstFeed pieces)).flatten.filterMap g = pieces.filterMap g := by
    rw [splitLines, flatten_gather, filterMap_flatMap_breakLines blind,
      filterMap_dropFirstFeed blind]
  unfold content
  split
  · rw [filterMap_dedent blind, filterMap_dropTerminator blind, lines]
  · rw [filterMap_dropTerminator blind, lines]

end Blind

/-- Reading a heredoc body keeps every interpolation, in order. -/
theorem sources_ofHeredoc (squiggly : Bool) (pieces : List Piece) :
    sources (ofHeredoc squiggly pieces) = pieceSources pieces := by
  rw [ofHeredoc_eq, sources_merge]
  exact filterMap_content (fun _ => rfl) squiggly pieces

end Wording

end PromptAudit
