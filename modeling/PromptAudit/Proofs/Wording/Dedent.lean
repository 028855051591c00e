import Mathlib.Data.List.Forall2
import Mathlib.Data.List.TakeWhile
import PromptAudit.Wording.Heredoc

namespace PromptAudit.Wording

/-- The characters of a piece; an escape or an interpolation counts as none of them. -/
def Piece.marks : Piece → List (Option Char)
  | verbatim t => t.map some
  | _ => [none]

def marks (line : Line) : List (Option Char) := line.flatMap Piece.marks

/-- The spaces and tabs at the start of a line, whatever pieces they are spread over. -/
def depth (line : Line) : Nat := ((marks line).takeWhile fun mark => mark.any isIndent).length

/-- `Loses taken line left`: what is left of a line when a text is taken off its front, and only
off verbatim pieces. Behind the text nothing changes. -/
inductive Loses : Text → Line → Line → Prop
  | nothing (line : Line) : Loses [] line line
  | part (s t : Text) (rest : Line) : Loses s (.verbatim (s ++ t) :: rest) (.verbatim t :: rest)
  | whole (s : Text) {u : Text} {rest left : Line} (behind : Loses u rest left) :
      Loses (s ++ u) (.verbatim s :: rest) (.verbatim [] :: left)

/-- A line without up to `m` characters of its indentation. -/
structure Outdented (m : Nat) (line left : Line) : Prop where
  taken : ∃ taken, Loses taken line left ∧ taken.length = min m (depth line) ∧
    ∀ c ∈ taken, isIndent c = true
  exact (shown : isBlankLine line = false) : depth left + m = depth line
  blank : isBlankLine left = isBlankLine line

/-- The least indentation of the lines that are not blank, and none when all are. -/
inductive Margin (lines : List Line) : Nat → Prop
  | none (blank : ∀ line ∈ lines, isBlankLine line = true) : Margin lines 0
  | least {line : Line} (listed : line ∈ lines) (shown : isBlankLine line = false)
      (least : ∀ other ∈ lines, isBlankLine other = false → depth line ≤ depth other) :
      Margin lines (depth line)

theorem lead_le_length (t : Text) : lead t ≤ t.length := (List.takeWhile_prefix isIndent).length_le

theorem take_lead (t : Text) : t.take (lead t) = t.takeWhile isIndent :=
  (List.prefix_iff_eq_take.mp (List.takeWhile_prefix isIndent)).symm

theorem isIndent_of_mem_take {t : Text} {k : Nat} (h : k ≤ lead t) :
    ∀ c ∈ t.take k, isIndent c = true := by
  intro c hc
  have inside : c ∈ t.takeWhile isIndent := by
    rw [← take_lead]
    exact List.take_subset_take_left t h hc
  exact List.mem_takeWhile_imp inside

theorem lead_drop {t : Text} {k : Nat} (h : k ≤ lead t) : lead (t.drop k) = lead t - k := by
  have parts : t.take k ++ t.drop k = t := List.take_append_drop k t
  have whole : lead t = k + lead (t.drop k) := by
    conv_lhs => rw [← parts]
    rw [lead, List.takeWhile_append_of_pos (isIndent_of_mem_take h), List.length_append,
      List.length_take_of_le (Nat.le_trans h (lead_le_length t)), lead]
  omega

theorem isBlank_of_isIndent {c : Char} (h : isIndent c = true) : Text.isBlank c = true := by
  simp only [isIndent, Bool.or_eq_true, decide_eq_true_eq] at h
  rcases h with rfl | rfl <;> decide

theorem blank_drop {t : Text} {k : Nat} (h : k ≤ lead t) : Text.blank (t.drop k) = Text.blank t := by
  have front : (t.take k).all Text.isBlank = true :=
    List.all_eq_true.mpr fun c hc => isBlank_of_isIndent (isIndent_of_mem_take h c hc)
  conv_rhs => rw [← List.take_append_drop k t]
  rw [Text.blank, Text.blank, List.all_append, front, Bool.true_and]

theorem indent_eq_depth (line : Line) : indent line = depth line := by
  induction line with
  | nil => rfl
  | cons p rest ih =>
    cases p with
    | decoded t => rfl
    | live s => rfl
    | verbatim t =>
      have front : (t.map some).takeWhile (fun mark => mark.any isIndent) =
          (t.takeWhile isIndent).map some := List.takeWhile_map ..
      have size : (((t.map some).takeWhile fun mark => mark.any isIndent).length =
          (t.map some).length) ↔ lead t = t.length := by
        rw [front, List.length_map, List.length_map, lead]
      simp only [depth, marks, List.flatMap_cons, Piece.marks, List.takeWhile_append, size, indent]
      split
      · rename_i full
        rw [List.length_append, List.length_map, full, ih, depth, marks]
      · rw [front, List.length_map, lead]

theorem outdent_zero (line : Line) : outdent 0 line = line := by
  induction line with
  | nil => rfl
  | cons p rest ih =>
    cases p with
    | decoded t => rfl
    | live s => rfl
    | verbatim t => simp [outdent, ih]

theorem loses_outdent (m : Nat) (line : Line) :
    ∃ taken, Loses taken line (outdent m line) ∧ taken.length = min m (indent line) ∧
      ∀ c ∈ taken, isIndent c = true := by
  induction line generalizing m with
  | nil => exact ⟨[], .nothing [], by simp [indent], by simp⟩
  | cons p rest ih =>
    cases p with
    | decoded t => exact ⟨[], .nothing _, by simp [indent], by simp⟩
    | live s => exact ⟨[], .nothing _, by simp [indent], by simp⟩
    | verbatim t =>
      have short := lead_le_length t
      have few (k : Nat) (hk : k ≤ lead t) : (t.take k).length = k :=
        List.length_take_of_le (Nat.le_trans hk short)
      have parts (k : Nat) : Loses (t.take k) (.verbatim t :: rest) (.verbatim (t.drop k) :: rest) := by
        have h := Loses.part (t.take k) (t.drop k) rest
        rwa [List.take_append_drop] at h
      simp only [outdent, indent]
      by_cases full : lead t = t.length
      · rw [if_pos full, if_pos full]
        by_cases inside : m ≤ lead t
        · rw [Nat.min_eq_left inside, Nat.sub_self, outdent_zero]
          exact ⟨_, parts m, by rw [few m inside]; omega, isIndent_of_mem_take inside⟩
        · obtain ⟨taken, behind, size, indents⟩ := ih (m - lead t)
          rw [Nat.min_eq_right (by omega), full, List.drop_length, ← full]
          refine ⟨t ++ taken, .whole t behind, ?_, fun c hc => ?_⟩
          · rw [List.length_append, size, ← full]
            omega
          · rcases List.mem_append.mp hc with front | back
            · refine isIndent_of_mem_take (Nat.le_refl (lead t)) c ?_
              rwa [full, List.take_length]
            · exact indents c back
      · rw [if_neg full, if_neg full]
        have within : min m (lead t) ≤ lead t := Nat.min_le_right ..
        exact ⟨_, parts _, few _ within, isIndent_of_mem_take within⟩

theorem indent_outdent (m : Nat) (line : Line) : indent (outdent m line) = indent line - m := by
  induction line generalizing m with
  | nil => simp [outdent, indent]
  | cons p rest ih =>
    cases p with
    | decoded t => simp [outdent, indent]
    | live s => simp [outdent, indent]
    | verbatim t =>
      have within : min m (lead t) ≤ lead t := Nat.min_le_right ..
      have short := lead_le_length t
      simp only [outdent, indent, lead_drop within, List.length_drop]
      by_cases full : lead t = t.length
      · rw [if_pos full, if_pos (by omega), if_pos full, ih]
        omega
      · rw [if_neg full, if_neg (by omega), if_neg full]
        omega

theorem isBlankLine_outdent (m : Nat) (line : Line) :
    isBlankLine (outdent m line) = isBlankLine line := by
  induction line generalizing m with
  | nil => rfl
  | cons p rest ih =>
    cases p with
    | decoded t => rfl
    | live s => rfl
    | verbatim t =>
      have front : Text.blank (t.drop (min m (lead t))) = Text.blank t :=
        blank_drop (Nat.min_le_right ..)
      simp only [isBlankLine] at ih
      simp only [isBlankLine, outdent, List.all_cons, Piece.isBlank, front]
      split
      · rw [ih]
      · rfl

theorem margin_spec (lines : List Line) : Margin lines (margin lines) := by
  have member {line : Line} : line ∈ lines.filter (fun line => !isBlankLine line) ↔
      line ∈ lines ∧ isBlankLine line = false := by simp
  unfold margin
  cases smallest : ((lines.filter fun line => !isBlankLine line).map indent).min? with
  | none =>
    have empty := List.map_eq_nil_iff.mp (List.min?_eq_none_iff.mp smallest)
    refine .none fun line listed => ?_
    simpa using List.filter_eq_nil_iff.mp empty line listed
  | some m =>
    obtain ⟨attained, least⟩ := List.min?_eq_some_iff.mp smallest
    obtain ⟨line, kept, rfl⟩ := List.mem_map.mp attained
    obtain ⟨listed, shown⟩ := member.mp kept
    rw [Option.getD_some, indent_eq_depth]
    refine .least listed shown fun other others lasts => ?_
    rw [← indent_eq_depth, ← indent_eq_depth]
    exact least _ (List.mem_map_of_mem (member.mpr ⟨others, lasts⟩))

theorem Margin.le {lines : List Line} {m : Nat} (h : Margin lines m) {line : Line}
    (listed : line ∈ lines) (shown : isBlankLine line = false) : m ≤ depth line := by
  cases h with
  | none => exact Nat.zero_le _
  | least _ _ least => exact least line listed shown

/-- The line that sets the common indentation has none left. -/
theorem exists_bare {lines : List Line} {line : Line} (listed : line ∈ lines)
    (shown : isBlankLine line = false) :
    ∃ bare ∈ dedent lines, isBlankLine bare = false ∧ depth bare = 0 := by
  have spec := margin_spec lines
  generalize same : margin lines = m at spec
  cases spec with
  | none blank => exact absurd (blank line listed) (by simp [shown])
  | @least nearest among visible =>
    refine ⟨_, List.mem_map_of_mem among, ?_, ?_⟩
    · rw [isBlankLine_outdent, visible]
    · rw [← indent_eq_depth, indent_outdent, indent_eq_depth, same, Nat.sub_self]

theorem margin_dedent (lines : List Line) : margin (dedent lines) = 0 := by
  have spec := margin_spec (dedent lines)
  generalize margin (dedent lines) = left at spec ⊢
  cases spec with
  | none => rfl
  | @least first listed shown least =>
    obtain ⟨line, among, rfl⟩ := List.mem_map.mp listed
    rw [isBlankLine_outdent] at shown
    obtain ⟨bare, last, visible, flush⟩ := exists_bare among shown
    exact Nat.le_zero.mp (flush ▸ least bare last visible)

theorem outdented_outdent {lines : List Line} {line : Line} (listed : line ∈ lines) :
    Outdented (margin lines) line (outdent (margin lines) line) where
  taken := by
    rw [← indent_eq_depth]
    exact loses_outdent _ line
  exact shown := by
    rw [← indent_eq_depth, indent_outdent, indent_eq_depth]
    exact Nat.sub_add_cancel ((margin_spec lines).le listed shown)
  blank := isBlankLine_outdent _ line

/-- Every line loses the common indentation, or all that it has of it, and nothing else. Lines that
are not blank lose the same, so they stand to each other as before, and another time nothing is
left to lose. -/
theorem dedent_evenly (lines : List Line) :
    ∃ m, Margin lines m ∧ List.Forall₂ (Outdented m) lines (dedent lines) ∧
      (∀ p ∈ lines.zip (dedent lines), ∀ q ∈ lines.zip (dedent lines),
        isBlankLine p.1 = false → isBlankLine q.1 = false →
          depth p.2 + depth q.1 = depth q.2 + depth p.1) ∧
      (0 < m → ∃ line ∈ dedent lines, isBlankLine line = false ∧ depth line = 0) ∧
      dedent (dedent lines) = dedent lines := by
  have each : List.Forall₂ (Outdented (margin lines)) lines (dedent lines) :=
    List.forall₂_map_right_iff.mpr (List.forall₂_same.mpr fun line => outdented_outdent)
  refine ⟨margin lines, margin_spec lines, each, ?_, fun some => ?_, ?_⟩
  · intro p hp q hq pShown qShown
    have first := (List.forall₂_iff_zip.mp each).2 hp
    have second := (List.forall₂_iff_zip.mp each).2 hq
    have pLoses := first.exact pShown
    have qLoses := second.exact qShown
    omega
  · have spec := margin_spec lines
    generalize margin lines = m at spec some
    cases spec with
    | none => exact absurd some (Nat.lt_irrefl 0)
    | least listed shown => exact exists_bare listed shown
  · calc dedent (dedent lines) = (dedent lines).map (outdent 0) := by rw [dedent, margin_dedent]
      _ = dedent lines := List.map_id'' outdent_zero _

example : dedent [[.verbatim " ".toList, .verbatim "\tif".toList, .decoded " ".toList],
      [.verbatim " \n".toList], [.verbatim "\t ".toList, .verbatim "  ".toList, .live "x".toList]] =
    [[.verbatim [], .verbatim "if".toList, .decoded " ".toList],
      [.verbatim "\n".toList], [.verbatim [], .verbatim "  ".toList, .live "x".toList]] := by
  decide

end PromptAudit.Wording
