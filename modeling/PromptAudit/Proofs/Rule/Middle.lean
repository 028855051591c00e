import Mathlib
import PromptAudit.Proofs.Rule.Headed
import PromptAudit.Proofs.Text.Pieces
import PromptAudit.Proofs.Text.Trim
import PromptAudit.Rule.Sections

namespace PromptAudit

namespace Text

/-- The rows of a content, blank ones and margins included. -/
def rows (content : Text) : List Text := pieces (· = '\n') (readLineFeeds content)

/-- What rows show: each without its margins, and none that is blank. -/
def shown (rows : List Text) : List Text := (rows.map trim).filter fun line => !line.isEmpty

/-- The same rows in another layout: with other margins, with blank rows more or less. -/
inductive Relaid : List Text → List Text → Prop
  | done : Relaid [] []
  | indented {left right left' right' t : Text} {rows rows' : List Text}
      (before : blank left = true) (after : blank right = true)
      (before' : blank left' = true) (after' : blank right' = true) (rest : Relaid rows rows') :
      Relaid ((left ++ t ++ right) :: rows) ((left' ++ t ++ right') :: rows')
  | inserted {row : Text} {rows rows' : List Text} (empty : blank row = true)
      (rest : Relaid rows rows') : Relaid rows (row :: rows')
  | deleted {row : Text} {rows rows' : List Text} (empty : blank row = true)
      (rest : Relaid rows rows') : Relaid (row :: rows) rows'

theorem shown_cons_blank {row : Text} {rows : List Text} (empty : blank row = true) :
    shown (row :: rows) = shown rows := by
  rw [shown, List.map_cons, trim_of_blank empty]
  rfl

theorem shown_cons_margins {left right t : Text} {rows : List Text}
    (before : blank left = true) (after : blank right = true) :
    shown ((left ++ t ++ right) :: rows) = shown (t :: rows) := by
  rw [shown, List.map_cons, trim_margins before after]
  rfl

theorem shown_cons_congr {t : Text} {rows rows' : List Text} (same : shown rows = shown rows') :
    shown (t :: rows) = shown (t :: rows') := by
  unfold shown at same ⊢
  rw [List.map_cons, List.map_cons, List.filter_cons, List.filter_cons, same]

theorem shown_of_relaid {rows rows' : List Text} (relaid : Relaid rows rows') :
    shown rows = shown rows' := by
  induction relaid with
  | done => rfl
  | indented before after before' after' _ ih =>
    rw [shown_cons_margins before after, shown_cons_margins before' after', shown_cons_congr ih]
  | inserted empty _ ih => rw [shown_cons_blank empty, ih]
  | deleted empty _ ih => rw [shown_cons_blank empty, ih]

/-- A row may stay as it is. -/
theorem Relaid.kept {t : Text} {rows rows' : List Text} (rest : Relaid rows rows') :
    Relaid (t :: rows) (t :: rows') := by
  have bare : [] ++ t ++ [] = t := List.append_nil t
  have relaid : Relaid (([] ++ t ++ []) :: rows) (([] ++ t ++ []) :: rows') :=
    .indented rfl rfl rfl rfl rest
  rwa [bare] at relaid

theorem shown_reverse (rows : List Text) : shown rows.reverse = (shown rows).reverse := by
  rw [shown, List.map_reverse, List.filter_reverse, shown]

end Text

namespace Rule

/-- A line that starts with three hash marks and white space right behind them. -/
def Labels (line : Text) : Prop :=
  ∃ c rest, line = "###".toList ++ c :: rest ∧ Text.isBlank c = true

/-- One of some lines that stand neither in the first nor in the last third is a label. -/
def MiddleLabels (lines : List Text) : Prop :=
  ∃ i line, lines[i]? = some line ∧ lines.length ⌈/⌉ 3 ≤ i ∧
    i < lines.length - lines.length ⌈/⌉ 3 ∧ Labels line

theorem visibleLines_eq (content : Text) : visibleLines content = Text.shown (Text.rows content) :=
  rfl

/-- From seven lines on there is something between the thirds, and a third has two lines. -/
theorem thirds {n : Nat} (enough : 7 ≤ n) : n ⌈/⌉ 3 < n - n ⌈/⌉ 3 ∧ edge n = n ⌈/⌉ 3 := by
  rw [edge, Nat.ceilDiv_eq_add_pred_div]
  omega

theorem hasMiddleSection_iff {content : Text} : hasMiddleSection content = true ↔
    7 ≤ (visibleLines content).length ∧ MiddleLabels (visibleLines content) := by
  simp only [hasMiddleSection, Bool.and_eq_true, decide_eq_true_eq, List.any_eq_true]
  refine and_congr_right fun enough => ?_
  rw [(thirds enough).2]
  constructor
  · intro found
    obtain ⟨⟨line, i⟩, listed, ⟨headed, low⟩, high⟩ := found
    exact ⟨i, line, List.mem_zipIdx_iff_getElem?.mp listed, low, high, isHeaded_iff.mp headed⟩
  · intro found
    obtain ⟨i, line, listed, low, high, labels⟩ := found
    exact ⟨(line, i), List.mem_zipIdx_iff_getElem?.mpr listed, ⟨isHeaded_iff.mpr labels, low⟩, high⟩

/-- Both thirds are equally long, so the middle stays the middle from the other end. -/
theorem middleLabels_of_reverse {lines : List Text} (found : MiddleLabels lines.reverse) :
    MiddleLabels lines := by
  obtain ⟨i, line, listed, low, high, labels⟩ := found
  rw [List.length_reverse] at low high
  rw [List.getElem?_reverse (by omega)] at listed
  exact ⟨lines.length - 1 - i, line, listed, by omega, by omega, labels⟩

theorem middleLabels_reverse {lines : List Text} :
    MiddleLabels lines.reverse ↔ MiddleLabels lines := by
  refine ⟨middleLabels_of_reverse, fun found => middleLabels_of_reverse ?_⟩
  rwa [List.reverse_reverse]

theorem hasMiddleSection_congr {content other : Text}
    (long : (visibleLines other).length = (visibleLines content).length)
    (labels : MiddleLabels (visibleLines other) ↔ MiddleLabels (visibleLines content)) :
    hasMiddleSection other = hasMiddleSection content := by
  rw [Bool.eq_iff_iff, hasMiddleSection_iff, hasMiddleSection_iff, long, labels]

/-- A content has a section in its middle when of its visible lines, seven or more, one outside the
first and the last third is a label. A third is rounded up, and from seven lines on something is
left between the thirds. So it does not matter how the lines are laid out, nor from which end they
are read. -/
theorem middle_third_decides (content : Text) :
    (hasMiddleSection content = true ↔
      7 ≤ (visibleLines content).length ∧ MiddleLabels (visibleLines content)) ∧
    (∀ n : Nat, 7 ≤ n → n ⌈/⌉ 3 < n - n ⌈/⌉ 3 ∧ edge n = n ⌈/⌉ 3) ∧
    ((visibleLines content).length ≤ 6 → hasMiddleSection content = false) ∧
    (∀ other, Text.Relaid (Text.rows content) (Text.rows other) →
      hasMiddleSection other = hasMiddleSection content) ∧
    ∀ other, Text.rows other = (Text.rows content).reverse →
      hasMiddleSection other = hasMiddleSection content := by
  refine ⟨hasMiddleSection_iff, fun n => thirds, fun few => ?_, fun other relaid => ?_,
    fun other reversed => ?_⟩
  · refine eq_false_of_ne_true fun found => ?_
    have enough := (hasMiddleSection_iff.mp found).1
    omega
  · have same : visibleLines other = visibleLines content := (Text.shown_of_relaid relaid).symm
    exact hasMiddleSection_congr (by rw [same]) (by rw [same])
  · have turned : visibleLines other = (visibleLines content).reverse := by
      rw [visibleLines_eq, reversed, Text.shown_reverse, visibleLines_eq]
    exact hasMiddleSection_congr (by rw [turned, List.length_reverse])
      (by rw [turned, middleLabels_reverse])

/-- Seven lines, the fourth a label; the same with two blank rows more and the label indented; and
the same from the last line to the first. -/
theorem labelled_layouts :
    hasMiddleSection "a\nb\nc\n### d\ne\nf\ng".toList = true ∧
    hasMiddleSection "a\n\nb\nc\n\t### d \ne\nf\ng\n".toList = true ∧
    hasMiddleSection "g\nf\ne\n### d\nc\nb\na".toList = true := by
  have rows : Text.rows "a\nb\nc\n### d\ne\nf\ng".toList =
      ["a", "b", "c", "### d", "e", "f", "g"].map String.toList := by decide +kernel
  have relaid : Text.Relaid (Text.rows "a\nb\nc\n### d\ne\nf\ng".toList)
      (Text.rows "a\n\nb\nc\n\t### d \ne\nf\ng\n".toList) := by
    have later : Text.rows "a\n\nb\nc\n\t### d \ne\nf\ng\n".toList =
        ["a", "", "b", "c", "\t### d ", "e", "f", "g", ""].map String.toList := by decide +kernel
    have indented {rest rest' : List Text} (h : Text.Relaid rest rest') :
        Text.Relaid ("### d".toList :: rest) ("\t### d ".toList :: rest') :=
      @Text.Relaid.indented [] [] ['\t'] [' '] "### d".toList rest rest' rfl rfl rfl rfl h
    rw [rows, later]
    exact .kept <| .inserted rfl <| .kept <| .kept <| indented <| .kept <| .kept <| .kept <|
      .inserted rfl .done
  have reversed : Text.rows "g\nf\ne\n### d\nc\nb\na".toList =
      (Text.rows "a\nb\nc\n### d\ne\nf\ng".toList).reverse := by decide +kernel
  obtain ⟨decides, -, -, layout, turned⟩ :=
    middle_third_decides "a\nb\nc\n### d\ne\nf\ng".toList
  have found : hasMiddleSection "a\nb\nc\n### d\ne\nf\ng".toList = true :=
    decides.mpr ⟨by decide +kernel, 3, "### d".toList, by decide +kernel, by decide +kernel,
      by decide +kernel, ' ', ['d'], by decide +kernel, by decide⟩
  exact ⟨found, (layout _ relaid).trans found, (turned _ reversed).trans found⟩

end Rule

end PromptAudit
