import PromptAudit.Proofs.Text.Decode
import PromptAudit.Proofs.Text.Pieces
import PromptAudit.Proofs.Tree.Line
import PromptAudit.Proofs.Tree.Sketch
import PromptAudit.Wording.Basic

namespace PromptAudit.Tree

open Wording

/-- The lines of a unit after all of it is read as text. -/
def readLines (source : Bytes) : List Text := Text.pieces (· = '\n') (Text.decode source)

theorem readLines_of_free {line : Bytes} (whole : lineFeed ∉ line) :
    readLines line = [Text.decode line] := by
  have free : ∀ c ∈ Text.decode line, decide (c = '\n') = false := by
    intro c inside
    refine decide_eq_false fun same => ?_
    exact Text.lineFeed_not_mem_decode whole (same ▸ inside)
  exact Text.pieces_of_free free

/-- A line feed divides the lines of a unit, whatever malformed bytes stand beside it. -/
theorem readLines_append (before after : Bytes) :
    readLines (before ++ lineFeed :: after) = readLines before ++ readLines after := by
  unfold readLines
  rw [Text.decode_append_ascii (by decide)]
  exact Text.pieces_append_sep rfl

theorem length_readLines (source : Bytes) :
    (readLines source).length = source.count lineFeed + 1 := by
  have feeds : (Text.decode source).countP (· = '\n') = (Text.decode source).count '\n' :=
    List.countP_congr fun c _ => by simp
  rw [readLines, Text.length_pieces, feeds, Text.count_decode]
  rfl

section Line

variable {source : Bytes} {offset : Nat} {before line after : Bytes}

/-- The row of an offset counts the line feeds before its line. -/
theorem HoldsLine.count_take (h : HoldsLine source offset before line after) :
    (source.take offset).count lineFeed = before.count lineFeed := by
  obtain ⟨inner, split, inLine⟩ := h.take_eq
  have none : inner.count lineFeed = 0 :=
    List.count_eq_zero.mpr fun inside => h.whole (inLine inside)
  rw [split, List.count_append, none, Nat.add_zero]

theorem HoldsLine.head?_readLines (h : HoldsLine source offset before line after) :
    (readLines (line ++ after)).head? = some (Text.decode line) := by
  have closed := h.closed
  cases after with
  | nil => rw [List.append_nil, readLines_of_free h.whole, List.head?_singleton]
  | cons b rest =>
    rw [closed b (by simp), readLines_append, readLines_of_free h.whole, List.singleton_append,
      List.head?_cons]

theorem HoldsLine.getElem?_readLines (h : HoldsLine source offset before line after) :
    (readLines source)[before.count lineFeed]? = some (Text.decode line) := by
  have opened := h.opened
  rw [h.parts]
  rcases List.eq_nil_or_concat before with rfl | ⟨front, b, rfl⟩
  · rw [List.nil_append, List.count_nil, ← List.head?_eq_getElem?, h.head?_readLines]
  · rw [List.concat_eq_append] at opened ⊢
    rw [opened b (by simp), List.append_assoc, List.singleton_append, readLines_append,
      List.count_append, List.count_singleton_self, ← length_readLines,
      List.getElem?_append_right (Nat.le_refl _), Nat.sub_self, ← List.head?_eq_getElem?,
      h.head?_readLines]

end Line

variable (t : Tree)

theorem getElem?_readLines_row (offset : Nat) :
    (readLines t.source)[t.row offset]? = some (t.lineAt offset) := by
  obtain ⟨before, after, holds⟩ := t.holdsLine_lineBytes offset
  rw [row, holds.count_take, holds.getElem?_readLines, lineAt]

theorem lineFeed_not_mem_lineAt (offset : Nat) : '\n' ∉ t.lineAt offset := by
  obtain ⟨before, after, holds⟩ := t.holdsLine_lineBytes offset
  exact Text.lineFeed_not_mem_decode holds.whole

theorem isTagged_congr {t other : Tree} {i j : Nat}
    (line : t.lineAt (t.start i) = other.lineAt (other.start j))
    (own : t.heredocTag i = other.heredocTag j) (tag : Text) :
    t.isTagged i tag = other.isTagged j tag := by
  rw [isTagged, isTagged, line, own]

/-- The line that is read for an offset is the line of that number in the unit read as a whole,
and it is all that a search for heredocs beside a node depends on. -/
theorem lines_read_alone :
    (∀ offset, (readLines t.source)[t.row offset]? = some (t.lineAt offset) ∧
      '\n' ∉ t.lineAt offset) ∧
    (∀ i, (readLines t.source)[((t.span i).startLine - 1).toNat]? =
      some (t.lineAt (t.start i))) ∧
    ∀ (other : Tree) (i j : Nat) (before before' line after after' : Bytes),
      HoldsLine t.source (t.start i) before line after →
      HoldsLine other.source (other.start j) before' line after' →
      tags (t.lineAt (t.start i)) = tags (other.lineAt (other.start j)) ∧
      (t.heredocTag i = other.heredocTag j → ∀ tag, t.isTagged i tag = other.isTagged j tag) := by
  refine ⟨fun offset => ⟨t.getElem?_readLines_row offset, t.lineFeed_not_mem_lineAt offset⟩,
    fun i => ?_, fun other i j before before' line after after' here there => ?_⟩
  · have number : ((t.span i).startLine - 1).toNat = t.row (t.start i) := by
      rw [span, Int.add_sub_cancel, Int.toNat_natCast]
    rw [number, getElem?_readLines_row]
  · have same : t.lineAt (t.start i) = other.lineAt (other.start j) := by
      rw [lineAt, lineAt, ← here.eq_lineBytes, ← there.eq_lineBytes]
    exact ⟨congrArg tags same, fun own => isTagged_congr same own⟩

/-- A heredoc on a line that breaks off within a character, behind a line that does so too. -/
def jagged : Tree where
  source := [0x78, 0xE3, 0x81, 0x0A, 0x3C, 0x3C, 0x41, 0xF0, 0x0A]
  root := .plain "program" 0 9
  children := .leaf (.plain "identifier" 4 7) .none
  broken := false

/-- The same line alone. -/
def jaggedLine : Tree where
  source := [0x3C, 0x3C, 0x41, 0xF0]
  root := .plain "program" 0 4
  children := .none
  broken := false

theorem jagged_line_read_alone :
    (readLines jagged.source)[1]? = some "<<A\uFFFD".toList ∧
    ∀ tag, jagged.isTagged 1 tag = jaggedLine.isTagged 0 tag := by
  obtain ⟨lines, -, beside⟩ := jagged.lines_read_alone
  have row : jagged.row 6 = 1 := by decide
  have line : jagged.lineAt 6 = "<<A\uFFFD".toList := by decide
  have here : HoldsLine jagged.source (jagged.start 1) [0x78, 0xE3, 0x81, 0x0A]
      [0x3C, 0x3C, 0x41, 0xF0] [0x0A] :=
    ⟨rfl, by decide, by simp [lineFeed], by simp [lineFeed], by decide, by decide⟩
  have there : HoldsLine jaggedLine.source (jaggedLine.start 0) [] [0x3C, 0x3C, 0x41, 0xF0] [] :=
    ⟨rfl, by decide, by simp, by simp, by decide, by decide⟩
  refine ⟨?_, (beside jaggedLine 1 0 _ _ _ _ _ here there).2 rfl⟩
  rw [← row, ← line]
  exact (lines 6).1

end PromptAudit.Tree
