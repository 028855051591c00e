import PromptAudit.Tree.Position

namespace PromptAudit.Tree

/-- The line of a unit that holds an offset: a stretch without line feed between two line feeds,
or an end of the unit in the place of one. Offsets behind the end belong to the last line. -/
structure HoldsLine (source : Bytes) (offset : Nat) (before line after : Bytes) : Prop where
  parts : source = before ++ (line ++ after)
  whole : lineFeed ∉ line
  opened : ∀ b ∈ before.getLast?, b = lineFeed
  closed : ∀ b ∈ after.head?, b = lineFeed
  reached : before.length ≤ offset
  held : offset ≤ before.length + line.length ∨ after = []

private theorem takeWhile_dropWhile_inLine {first rest : Bytes} (h : lineFeed ∉ first)
    (stop : ∀ b ∈ rest.head?, b = lineFeed) :
    (first ++ rest).takeWhile (· != lineFeed) = first ∧
      (first ++ rest).dropWhile (· != lineFeed) = rest := by
  have inLine : ∀ b ∈ first, (b != lineFeed) = true := by
    intro b hb
    have other : b ≠ lineFeed := fun same => h (same ▸ hb)
    simpa using other
  rw [List.takeWhile_append_of_pos inLine, List.dropWhile_append_of_pos inLine]
  cases rest with
  | nil => simp
  | cons b r => simp [stop b (by simp)]

variable (t : Tree)

/-- Between the start of a line and an offset in it stand only bytes of the line. -/
theorem HoldsLine.take_eq {source : Bytes} {offset : Nat} {before line after : Bytes}
    (h : HoldsLine source offset before line after) :
    ∃ inner, source.take offset = before ++ inner ∧ inner ⊆ line := by
  refine ⟨(line ++ after).take (offset - before.length), ?_, ?_⟩
  · rw [h.parts, List.take_append, List.take_of_length_le h.reached]
  · rcases h.held with held | rfl
    · rw [List.take_append_of_le_length (by omega)]
      exact List.take_subset _ _
    · rw [List.append_nil]
      exact List.take_subset _ _

theorem HoldsLine.lineStart_eq {offset : Nat} {before line after : Bytes}
    (h : HoldsLine t.source offset before line after) : t.lineStart offset = before.length := by
  obtain ⟨inner, htake, hsub⟩ := h.take_eq
  have hinner : lineFeed ∉ inner.reverse := fun bad => h.whole (hsub (List.mem_reverse.mp bad))
  have hbefore : ∀ b ∈ before.reverse.head?, b = lineFeed := by
    rw [List.head?_reverse]
    exact h.opened
  have parts := (takeWhile_dropWhile_inLine hinner hbefore).2
  rw [lineStart, htake, List.reverse_append, parts, List.length_reverse]

/-- The bytes read for an offset are those of the one line that holds it. -/
theorem HoldsLine.eq_lineBytes {offset : Nat} {before line after : Bytes}
    (h : HoldsLine t.source offset before line after) : line = t.lineBytes offset := by
  have hdrop : t.source.drop before.length = line ++ after := by
    rw [h.parts, List.drop_left]
  rw [lineBytes, h.lineStart_eq, hdrop, (takeWhile_dropWhile_inLine h.whole h.closed).1]

theorem holdsLine_lineBytes (offset : Nat) :
    ∃ before after, HoldsLine t.source offset before (t.lineBytes offset) after := by
  let upto := t.source.take offset
  let before := (upto.reverse.dropWhile (· != lineFeed)).reverse
  let inner := (upto.reverse.takeWhile (· != lineFeed)).reverse
  have hupto : upto = before ++ inner := by
    rw [← List.reverse_append, List.takeWhile_append_dropWhile, List.reverse_reverse]
  have hlen : before.length + inner.length = min offset t.source.length := by
    rw [← List.length_append, ← hupto, List.length_take]
  have hstart : t.lineStart offset = before.length := by
    rw [List.length_reverse]; rfl
  have hsource : t.source = before ++ (inner ++ t.source.drop offset) := by
    rw [← List.append_assoc, ← hupto, List.take_append_drop]
  have hinner : ∀ b ∈ inner, (b != lineFeed) = true := by
    intro b hb
    exact List.all_eq_true.mp List.all_takeWhile b (List.mem_reverse.mp hb)
  have hline : t.lineBytes offset = inner ++ (t.source.drop offset).takeWhile (· != lineFeed) := by
    have hdrop : t.source.drop before.length = inner ++ t.source.drop offset :=
      (congrArg (List.drop before.length) hsource).trans List.drop_left
    rw [lineBytes, hstart, hdrop, List.takeWhile_append_of_pos hinner]
  refine ⟨before, (t.source.drop offset).dropWhile (· != lineFeed), ?_⟩
  constructor
  case parts =>
    rw [hline, List.append_assoc, List.takeWhile_append_dropWhile]
    exact hsource
  case whole =>
    intro bad
    simpa using List.all_eq_true.mp List.all_takeWhile _ bad
  case opened =>
    intro b hb
    have stop := List.head?_dropWhile_not (· != lineFeed) upto.reverse
    rw [List.getLast?_reverse] at hb
    rw [Option.mem_def.mp hb] at stop
    simpa using stop
  case closed =>
    intro b hb
    have stop := List.head?_dropWhile_not (· != lineFeed) (t.source.drop offset)
    rw [Option.mem_def.mp hb] at stop
    simpa using stop
  case reached => omega
  case held =>
    by_cases h : offset ≤ t.source.length
    · left
      rw [hline, List.length_append]
      omega
    · right
      rw [List.drop_eq_nil_of_le (by omega), List.dropWhile_nil]

end PromptAudit.Tree
