import PromptAudit.Proofs.Audit.Selection
import PromptAudit.Proofs.Tree.Piece
import PromptAudit.Proofs.Wording.Ink

namespace PromptAudit

open Wording

namespace Tree

variable {t : Tree} {i c : Nat} {w : Wording}

/-- What a string node says, told by its parts: a literal is one text without interpolation, any
other string and a chain have a fragment for each part, and a heredoc is read line by line. -/
inductive Tells (t : Tree) (i : Nat) : Wording → Prop
  | literal (kind : t.kind i = .literal) (fixed : t.pieces i = t.parts i) :
      Tells t i [.fixed ((t.parts i).flatMap t.partText)]
  | composite (kind : t.kind i = .composite) (plain : t.type i ≠ "heredoc_beginning") :
      Tells t i ((t.parts i).map t.fragment)
  | heredoc (opening : t.type i = "heredoc_beginning") :
      Tells t i (ofHeredoc (t.isSquiggly i) ((t.parts i).flatMap t.heredocPart))

theorem tells_iff : t.Tells i w ↔ (t.kind i).isString = true ∧ w = t.rawWording i := by
  constructor
  · intro told
    cases told with
    | literal kind fixed =>
      exact ⟨by rw [kind]; rfl, by rw [rawWording_of_literal kind, fixed]⟩
    | composite kind plain =>
      exact ⟨by rw [kind]; rfl, (rawWording_of_composite kind plain).symm⟩
    | heredoc opening =>
      exact ⟨isString_of_opening opening, (rawWording_of_opening opening).symm⟩
  · rintro ⟨isString, rfl⟩
    by_cases opening : t.type i = "heredoc_beginning"
    · rw [rawWording_of_opening opening]
      exact .heredoc opening
    · cases kind : t.kind i with
      | literal =>
        rw [rawWording_of_literal kind, pieces_of_literal kind]
        exact .literal kind (pieces_of_literal kind)
      | composite =>
        rw [rawWording_of_composite kind opening]
        exact .composite kind opening
      | _ => simp [kind, Kind.isString] at isString

/-- A string node is silent when it has no interpolation and all of its text is white space. -/
theorem wording_eq_some_iff : t.wording i = some w ↔
    t.Tells i w ∧ (w.hasLive = true ∨ Text.blank w.fixedText = false) := by
  rw [tells_iff, wording]
  cases isString : (t.kind i).isString with
  | false => simp
  | true =>
    have silent : (!(t.rawWording i).hasLive && Text.blank (t.rawWording i).fixedText) = false ↔
        (t.rawWording i).hasLive = true ∨ Text.blank (t.rawWording i).fixedText = false := by
      cases (t.rawWording i).hasLive <;> simp
    simp only [if_true, true_and]
    split
    · rename_i blank
      refine iff_of_false (by simp) ?_
      rintro ⟨rfl, shown⟩
      rw [silent.mpr shown] at blank
      cases blank
    · rename_i shown
      rw [Option.some_inj, eq_comm]
      refine ⟨?_, And.left⟩
      rintro rfl
      exact ⟨rfl, silent.mp (Bool.eq_false_iff.mpr shown)⟩

theorem part_of_opening (opening : t.type i = "heredoc_beginning") (part : c ∈ t.parts i) :
    t.isInterpolation c = true ∨ t.isBodyText c = true := by
  rw [parts, if_neg (by rw [opening]; decide), if_pos opening] at part
  obtain ⟨body, _, inside⟩ := List.mem_flatMap.mp part
  exact Bool.or_eq_true_iff.mp (List.mem_filter.mp inside).2

theorem pieceInk_heredocPart (part : t.isInterpolation c = true ∨ t.isBodyText c = true) :
    pieceInk (t.heredocPart c) = if t.isInterpolation c then [] else Text.ink (t.partText c) := by
  simp only [isInterpolation, isBodyText, Bool.or_eq_true, decide_eq_true_eq] at part
  rcases part with type | type | type <;>
    simp [heredocPart, isInterpolation, type, partText, pieceInk, Piece.fixedText, Text.ink]

/-- What shows of a string node's text is what shows of its pieces, in order. -/
theorem Tells.ink (told : t.Tells i w) :
    Text.ink w.fixedText = (t.pieces i).flatMap fun c => Text.ink (t.partText c) := by
  cases told with
  | literal kind fixed =>
    rw [fixed, Wording.fixedText, List.flatMap_singleton, Fragment.fixedText, Text.ink,
      List.filter_flatMap]
    rfl
  | composite kind plain => rw [fixedText_map_fragment, ← pieces, Text.ink, List.filter_flatMap]; rfl
  | heredoc opening =>
    have each : ∀ nodes : List Nat, nodes ⊆ t.parts i →
        pieceInk (nodes.flatMap t.heredocPart) =
          (nodes.filter fun c => !t.isInterpolation c).flatMap fun c => Text.ink (t.partText c) := by
      intro nodes inside
      induction nodes with
      | nil => rfl
      | cons c rest ih =>
        obtain ⟨part, inside⟩ := List.cons_subset.mp inside
        rw [List.flatMap_cons, pieceInk_append, ih inside,
          pieceInk_heredocPart (part_of_opening opening part)]
        cases live : t.isInterpolation c <;> simp [live]
    rw [ink_ofHeredoc, each _ (List.Subset.refl _), pieces]

/-- How the literal text of a tree is shared out among its string nodes: what belongs to a string
is read by the one node it belongs to, and nothing else is read. -/
structure SharesOut (t : Tree) : Prop where
  owner (i c : Nat) : c ∈ t.pieces i ↔ t.Owns i c
  isString (i c : Nat) (read : c ∈ t.pieces i) : (t.kind i).isString = true
  once (c : Nat) (piece : t.IsPiece c) : ∃! i, c ∈ t.pieces i
  stray (c : Nat) (other : ¬ t.IsPiece c) (i : Nat) : c ∉ t.pieces i
  ordered (i : Nat) : (t.parts i).Pairwise (· < ·)
  wording (i : Nat) (w : Wording) : t.wording i = some w ↔
    t.Tells i w ∧ (w.hasLive = true ∨ Text.blank w.fixedText = false)
  joined (i : Nat) (w : Wording) (told : t.Tells i w) (plain : t.type i ≠ "heredoc_beginning") :
    w.fixedText = (t.pieces i).flatMap t.partText
  shown (i : Nat) (w : Wording) (told : t.Tells i w) :
    Text.ink w.fixedText = (t.pieces i).flatMap fun c => Text.ink (t.partText c)

theorem sharesOut (t : Tree) : t.SharesOut where
  owner _ _ := mem_pieces_iff
  isString _ _ read := (mem_pieces_iff.mp read).isString
  once c piece := by
    obtain ⟨i, owns⟩ := piece.exists_owns
    exact ⟨i, mem_pieces_iff.mpr owns, fun j read => (mem_pieces_iff.mp read).unique owns⟩
  stray _ other _ read := other (mem_pieces_iff.mp read).isPiece
  ordered := parts_pairwise
  wording _ _ := wording_eq_some_iff
  joined i w told plain := by
    obtain ⟨isString, rfl⟩ := tells_iff.mp told
    exact fixedText_rawWording isString plain
  shown _ _ told := told.ink

end Tree

namespace Rule

/-- Where a traversal with all rules has the token budget look. -/
def budgetVisits (t : Tree) : List Nat :=
  ((Audit.visits all t).filter (·.2.id = .tokenBudget)).map (·.1)

theorem budgetVisits_eq (t : Tree) :
    budgetVisits t = t.nodes.filter fun i => (t.kind i).isString := by
  have only : all.filter (·.id = .tokenBudget) = [budget] := rfl
  have look (i : Nat) : (budget.triggers.contains (t.kind i)) = (t.kind i).isString := by
    cases t.kind i <;> rfl
  rw [budgetVisits, ← Audit.visits_filter (fun rule => rule.id = .tokenBudget), only, Audit.visits,
    List.map_flatMap]
  induction t.nodes with
  | nil => rfl
  | cons i rest ih =>
    rw [List.flatMap_cons, ih, List.filter_singleton, look, List.filter_cons]
    cases (t.kind i).isString <;> rfl

/-- The budget counts every string in prompt code that shows something, whole and once. -/
structure CountsOnce (t : Tree) : Prop where
  nodup : ((budgetVisits t).flatMap t.pieces).Nodup
  complete (c : Nat) : c ∈ (budgetVisits t).flatMap t.pieces ↔ t.IsPiece c
  text (policy : Policy) (i : Nat) (text : Text) : budgetText ⟨t, policy, i⟩ = some text ↔
    t.inPromptScope i = true ∧ (∃ w, t.Tells i w ∧ w.fixedText = text) ∧ Text.blank text = false
  counted (policy : Policy) (i : Nat) (m : Meter) :
    (budgetCheck ⟨t, policy, i⟩ m).map (·.complaint) = .ok ((budgetText ⟨t, policy, i⟩).bind
      fun text => budgetComplaint policy.maxTokens (Meter.reading m.source text))
  noticed (policy : Policy) (i c : Nat) (scope : t.inPromptScope i = true) (piece : c ∈ t.pieces i)
    (shows : Text.blank (t.partText c) = false) : budgetText ⟨t, policy, i⟩ ≠ none

theorem budgetText_eq_some_iff {t : Tree} {policy : Policy} {i : Nat} {text : Text} :
    budgetText ⟨t, policy, i⟩ = some text ↔
      t.inPromptScope i = true ∧ (∃ w, t.Tells i w ∧ w.fixedText = text) ∧
        Text.blank text = false := by
  rw [budgetText]
  cases scope : t.inPromptScope i with
  | false => simp
  | true =>
    simp only [if_true, true_and, Tree.visibleText, Tree.fixedText, Option.filter_eq_some_iff,
      Option.map_eq_some_iff, Tree.wording_eq_some_iff, Bool.not_eq_true']
    constructor
    · rintro ⟨⟨w, ⟨told, _⟩, rfl⟩, shows⟩
      exact ⟨⟨w, told, rfl⟩, shows⟩
    · rintro ⟨⟨w, told, rfl⟩, shows⟩
      exact ⟨⟨w, ⟨told, .inr shows⟩, rfl⟩, shows⟩

theorem flatMap_pieces_nodup {t : Tree} {nodes : List Nat} (once : nodes.Nodup) :
    (nodes.flatMap t.pieces).Nodup := by
  refine List.nodup_flatMap.mpr ⟨fun i _ => Tree.pieces_nodup i, once.imp fun {i j} apart c => ?_⟩
  exact fun first second =>
    apart ((Tree.mem_pieces_iff.mp first).unique (Tree.mem_pieces_iff.mp second))

theorem budgetVisits_nodup (t : Tree) : (budgetVisits t).Nodup := by
  rw [budgetVisits_eq]
  exact List.nodup_range.filter _

theorem mem_budgetVisits_of_mem_pieces {t : Tree} {i c : Nat} (read : c ∈ t.pieces i) :
    i ∈ budgetVisits t := by
  have isString := (Tree.mem_pieces_iff.mp read).isString
  rw [budgetVisits_eq, List.mem_filter, Tree.nodes, List.mem_range]
  exact ⟨Tree.lt_size_of_isString isString, isString⟩

theorem countsOnce (t : Tree) : CountsOnce t where
  nodup := flatMap_pieces_nodup (budgetVisits_nodup t)
  complete c := by
    rw [List.mem_flatMap]
    constructor
    · rintro ⟨i, _, read⟩
      exact (Tree.mem_pieces_iff.mp read).isPiece
    · intro piece
      obtain ⟨i, owns⟩ := piece.exists_owns
      have read := Tree.mem_pieces_iff.mpr owns
      exact ⟨i, mem_budgetVisits_of_mem_pieces read, read⟩
  text _ _ _ := budgetText_eq_some_iff
  counted policy i m := by
    rw [budgetCheck_eq]
    cases budgetText ⟨t, policy, i⟩ <;> rfl
  noticed policy i c scope piece shows := by
    have told := Tree.tells_iff.mpr ⟨(Tree.mem_pieces_iff.mp piece).isString, rfl⟩
    have visible : Text.blank (t.rawWording i).fixedText = false := by
      rw [← Bool.not_eq_true, ← Text.ink_eq_nil_iff, told.ink, List.flatMap_eq_nil_iff]
      intro none
      rw [Text.ink_eq_nil_iff.mp (none c piece)] at shows
      cases shows
    rw [budgetText_eq_some_iff.mpr ⟨scope, ⟨_, told, rfl⟩, visible⟩]
    exact Option.some_ne_none _

/-- Every piece of literal text in a tree has one string node that reads it, the one it belongs to,
and a traversal with the token budget counts it there, in its place and nowhere else. -/
theorem literal_text_counted_once (t : Tree) : t.SharesOut ∧ CountsOnce t :=
  ⟨t.sharesOut, countsOnce t⟩

open Tree.Shape (plain held)
open Tree.Forest (leaf only)

/-- A chain of a string with an escape and one with an interpolation. -/
def twoLinks : Tree :=
  Tree.promptMethod "\"a\\n\" \"b#\x7bc\x7d\"" <|
    only (held "value" "chained_string" 22 35) <|
      .more (plain "string" 22 27)
        (leaf (plain "string_content" 23 24) <| leaf (plain "escape_sequence" 24 26) .none) <|
      only (plain "string" 28 35) <|
        leaf (plain "string_content" 29 30) <|
        only (plain "interpolation" 30 34) (leaf (plain "identifier" 32 33) .none)

example : budgetVisits twoLinks = [7] ∧ twoLinks.parts 7 = [9, 10, 12, 13] ∧
    twoLinks.pieces 7 = [9, 10, 12] ∧ twoLinks.wording 8 = none ∧
    twoLinks.wording 7 = some
      [.fixed "a".toList, .fixed "\n".toList, .fixed "b".toList, .live "#\x7bc\x7d".toList] := by
  decide +kernel

end Rule

end PromptAudit
