import Mathlib.Data.List.DropRight
import Mathlib.Data.List.TakeWhile
import PromptAudit.Proofs.Text.Trim

namespace PromptAudit.Text

variable {c : Char} {s t u front behind : Text}

section Trim

theorem blank_cons : blank (c :: t) = (isBlank c && blank t) := rfl

theorem trim_cons_of_blank (h : isBlank c = true) : trim (c :: t) = trim t := by
  rw [trim, trim, trimLeft, List.dropWhile_cons_of_pos h, trimLeft]

theorem trim_append_of_blank (h : blank behind = true) : trim (t ++ behind) = trim t := by
  have nothing : blank [] = true := rfl
  exact trim_margins nothing h

theorem not_blank_of_trimLeft (h : trimLeft t = c :: s) : isBlank c = false := by
  have stop := List.head?_dropWhile_not isBlank t
  rw [trimLeft] at h
  rw [h] at stop
  exact stop

theorem exists_trimRight (t : Text) : ∃ right, blank right = true ∧ t = trimRight t ++ right := by
  have split : trimRight t ++ t.rtakeWhile isBlank = t := List.rdropWhile_append_rtakeWhile ..
  exact ⟨_, List.all_eq_true.mpr fun _ => List.mem_rtakeWhile_imp, split.symm⟩

/-- What trimming takes off a text is white space on both sides. -/
theorem exists_margins (t : Text) :
    ∃ left right, blank left = true ∧ blank right = true ∧ t = left ++ (trim t ++ right) := by
  obtain ⟨right, after, split⟩ := exists_trimRight (trimLeft t)
  refine ⟨t.takeWhile isBlank, right, List.all_takeWhile, after, ?_⟩
  rw [trim, ← split, trimLeft, List.takeWhile_append_dropWhile]

theorem not_blank_of_trim (h : trim t = c :: s) : isBlank c = false := by
  obtain ⟨right, -, split⟩ := exists_trimRight (trimLeft t)
  rw [← trim, h] at split
  exact not_blank_of_trimLeft split

/-- The white space at the end of a text is not left by trimming. -/
theorem eq_nil_of_trim (h : trim t = s ++ u) (empty : blank u = true) : u = [] := by
  by_contra filled
  have kept : trim t ≠ [] := by
    rw [h]
    exact List.append_ne_nil_of_right_ne_nil s filled
  have shown : ¬ isBlank ((trim t).getLast kept) = true :=
    List.rdropWhile_last_not isBlank (trimLeft t) kept
  have last : (trim t).getLast kept = u.getLast filled := by
    simp only [h]
    exact List.getLast_append_of_ne_nil _ filled
  rw [last] at shown
  exact shown (List.all_eq_true.mp empty _ (List.getLast_mem filled))

end Trim

section Lines

/-- The first line that shows something. -/
def firstVisible (t : Text) : Option Text := (lines t).find? fun line => !blank line

def inLine (c : Char) : Bool := !isLineEnd c

/-- Every end of a line is white space. -/
theorem isBlank_of_isLineEnd (ends : isLineEnd c = true) : isBlank c = true := by
  simp only [isLineEnd, isBlank, within, blankRuns, List.any_cons, List.any_nil, Bool.or_false,
    Bool.or_eq_true, Bool.and_eq_true, decide_eq_true_eq] at ends ⊢
  omega

theorem inLine_of_not_blank (shown : isBlank c = false) : inLine c = true := by
  rw [inLine, Bool.not_eq_true']
  refine eq_false_of_ne_true fun ends => ?_
  rw [isBlank_of_isLineEnd ends] at shown
  cases shown

/-- The first line of a text ends before the first line end. -/
theorem exists_lines (h : t ≠ []) : ∃ later, lines t = t.takeWhile inLine :: later := by
  fun_induction lines t with
  | case1 => exact absurd rfl h
  | case2 r ih => exact ⟨lines r, rfl⟩
  | case3 c r _ ends ih =>
    have outside : inLine c = false := by rw [inLine, ends]; rfl
    exact ⟨lines r, by rw [List.takeWhile_cons_of_neg (by simp [outside])]⟩
  | case4 c r _ goesOn none ih =>
    have inside : inLine c = true := by simpa [inLine] using goesOn
    cases r with
    | nil => exact ⟨[], by rw [List.takeWhile_cons_of_pos inside, List.takeWhile_nil]⟩
    | cons d r =>
      obtain ⟨later, split⟩ := ih (List.cons_ne_nil d r)
      rw [none] at split
      cases split
  | case5 c r _ goesOn line rest some ih =>
    have inside : inLine c = true := by simpa [inLine] using goesOn
    have shown : r ≠ [] := by
      rintro rfl
      cases some
    obtain ⟨later, split⟩ := ih shown
    rw [some] at split
    obtain ⟨rfl, rfl⟩ := List.cons_eq_cons.mp split
    exact ⟨rest, by rw [List.takeWhile_cons_of_pos inside]⟩

/-- White space in front may open lines or widen the first one; trimmed, the first line that shows
something stays the same. -/
theorem firstVisible_cons_of_blank (h : isBlank c = true) :
    (firstVisible (c :: t)).map trim = (firstVisible t).map trim := by
  have skipped (rest : List Text) :
      ([] :: rest).find? (fun line => !blank line) = rest.find? fun line => !blank line := rfl
  unfold firstVisible
  generalize same : c :: t = u
  fun_cases lines u with
  | case1 => cases same
  | case2 r =>
    obtain ⟨rfl, rfl⟩ := List.cons_eq_cons.mp same
    rfl
  | case3 d r _ ends =>
    obtain ⟨rfl, rfl⟩ := List.cons_eq_cons.mp same
    rw [skipped]
  | case4 d r _ goesOn none =>
    obtain ⟨rfl, rfl⟩ := List.cons_eq_cons.mp same
    rw [none]
    simp [blank, h]
  | case5 d r _ goesOn line rest some =>
    obtain ⟨rfl, rfl⟩ := List.cons_eq_cons.mp same
    have wider : blank (c :: line) = blank line := by rw [blank_cons, h]; rfl
    rw [some, List.find?_cons, List.find?_cons, wider]
    cases blank line with
    | true => rfl
    | false => exact congrArg Option.some (trim_cons_of_blank h)

theorem firstVisible_append_of_blank (h : blank front = true) :
    (firstVisible (front ++ t)).map trim = (firstVisible t).map trim := by
  induction front with
  | nil => rfl
  | cons c front ih =>
    rw [blank_cons, Bool.and_eq_true] at h
    rw [List.cons_append, firstVisible_cons_of_blank h.1, ih h.2]

theorem firstVisible_of_shown (h : isBlank c = false) :
    firstVisible (c :: t) = some ((c :: t).takeWhile inLine) := by
  obtain ⟨later, split⟩ := exists_lines (List.cons_ne_nil c t)
  have shown : blank ((c :: t).takeWhile inLine) = false := by
    rw [List.takeWhile_cons_of_pos (inLine_of_not_blank h), blank_cons, h]
    rfl
  rw [firstVisible, split, List.find?_cons, shown]
  rfl

theorem takeWhile_inLine_append (ends : ∀ d ∈ behind.head?, isLineEnd d = true) :
    (t ++ behind).takeWhile inLine = t.takeWhile inLine := by
  have none : behind.takeWhile inLine = [] := by
    cases behind with
    | nil => rfl
    | cons d r => exact List.takeWhile_cons_of_neg (by simp [inLine, ends d (by simp)])
  rw [List.takeWhile_append, none, List.append_nil]
  split
  · rename_i whole
    exact ((List.takeWhile_prefix _).eq_of_length whole).symm
  · rfl

/-- The first line of a trimmed text is the first one that shows something. -/
theorem head?_lines_trim (t : Text) :
    (lines (trim t)).head?.map trim = (firstVisible t).map trim := by
  obtain ⟨left, right, before, after, split⟩ := exists_margins t
  have visible : (firstVisible t).map trim = (firstVisible (trim t ++ right)).map trim :=
    (congrArg (fun s => (firstVisible s).map trim) split).trans
      (firstVisible_append_of_blank before)
  rw [visible]
  cases core : trim t with
  | nil =>
    have empty := firstVisible_append_of_blank (t := []) after
    rw [List.append_nil] at empty
    rw [List.nil_append, empty]
    rfl
  | cons c r =>
    have shown := not_blank_of_trim core
    obtain ⟨later, first⟩ := exists_lines (List.cons_ne_nil c r)
    rw [first, List.cons_append, firstVisible_of_shown shown, ← List.cons_append,
      List.takeWhile_append]
    simp only [List.head?_cons, Option.map_some, Option.some.injEq]
    split
    · rename_i whole
      have all : (c :: r).takeWhile inLine = c :: r :=
        (List.takeWhile_prefix _).eq_of_length whole
      have cut : blank (right.takeWhile inLine) = true :=
        List.all_eq_true.mpr fun d inside =>
          List.all_eq_true.mp after d ((List.takeWhile_prefix _).subset inside)
      rw [trim_append_of_blank cut, all]
    · rfl

/-- What stands behind the end of a line does not change which line shows something first, if one
before it does. -/
theorem firstVisible_append (shown : blank t = false)
    (ends : ∀ d ∈ behind.head?, isLineEnd d = true) :
    (firstVisible (t ++ behind)).map trim = (firstVisible t).map trim := by
  obtain ⟨left, right, before, after, split⟩ := exists_margins t
  cases core : trim t with
  | nil =>
    have empty : blank t = true := by
      rw [split, core, List.nil_append, blank, List.all_append, Bool.and_eq_true]
      exact ⟨before, after⟩
    rw [empty] at shown
    cases shown
  | cons c r =>
    have first := not_blank_of_trim core
    rw [core] at split
    rw [split, List.append_assoc, firstVisible_append_of_blank before,
      firstVisible_append_of_blank before, List.cons_append, List.cons_append,
      firstVisible_of_shown first, firstVisible_of_shown first, ← List.cons_append,
      takeWhile_inLine_append ends]

end Lines

end PromptAudit.Text
