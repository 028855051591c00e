import PromptAudit.Proofs.Text.Occurrence
import PromptAudit.Proofs.Text.Trim

namespace PromptAudit.Text

variable {c : Char} {s t u : Text}

section Apart

theorem readLineFeeds_cons (other : ¬ (c = '\\' ∧ t.head? = some 'n')) :
    readLineFeeds (c :: t) = c :: readLineFeeds t := by
  rw [readLineFeeds]
  rintro r rfl rfl
  exact other ⟨rfl, rfl⟩

/-- Two texts are read apart unless a backslash and its letter are torn apart. -/
theorem readLineFeeds_append (whole : t.getLast? = some '\\' → u.head? ≠ some 'n') :
    readLineFeeds (t ++ u) = readLineFeeds t ++ readLineFeeds u := by
  fun_induction readLineFeeds t with
  | case1 => rfl
  | case2 r ih =>
    have later := ih fun last => whole (by simp [List.getLast?_cons, last])
    rw [List.cons_append, List.cons_append, readLineFeeds, later, List.cons_append]
  | case3 c r other ih =>
    have later := ih fun last => whole (by simp [List.getLast?_cons, last])
    have still : ¬ (c = '\\' ∧ (r ++ u).head? = some 'n') := by
      intro torn
      obtain ⟨rfl, letter⟩ := torn
      cases r with
      | nil => exact whole rfl letter
      | cons d r =>
        obtain rfl : d = 'n' := Option.some.inj letter
        exact other r rfl rfl
    rw [List.cons_append, readLineFeeds_cons still, later, List.cons_append]

theorem not_backslash_of_blank (h : blank (readLineFeeds t) = true) :
    t.getLast? ≠ some '\\' := by
  intro last
  obtain ⟨front, rfl⟩ := List.getLast?_eq_some_iff.mp last
  rw [readLineFeeds_append (by simp), blank, List.all_append, Bool.and_eq_true] at h
  exact absurd h.2 (by decide)

end Apart

section Letters

/-- How a line feed is written in letters. -/
def feedInLetters : Text := ['\\', 'n']

/-- Every line feed written in letters. -/
def writeLineFeeds (t : Text) : Text := t.flatMap fun c => if c = '\n' then feedInLetters else [c]

/-- The second text is the first one with some of its line feeds in letters. -/
inductive WritesOut : Text → Text → Prop
  | nil : WritesOut [] []
  | kept {c : Char} {s t : Text} (rest : WritesOut s t) : WritesOut (c :: s) (c :: t)
  | written {s t : Text} (rest : WritesOut s t) : WritesOut ('\n' :: s) ('\\' :: 'n' :: t)

theorem writesOut_writeLineFeeds (t : Text) : WritesOut t (writeLineFeeds t) := by
  unfold writeLineFeeds
  induction t with
  | nil => exact .nil
  | cons c t ih =>
    rw [List.flatMap_cons]
    split
    · rename_i feed
      subst feed
      exact .written ih
    · exact .kept ih

/-- What stands in letters has no line feed, so it stays as it is when others are written out. -/
theorem WritesOut.trans (first : WritesOut s t) (second : WritesOut t u) : WritesOut s u := by
  induction first generalizing u with
  | nil => exact second
  | kept rest ih =>
    cases second with
    | kept later => exact .kept (ih later)
    | written later => exact .written (ih later)
  | written rest ih =>
    cases second with
    | kept second =>
      cases second with
      | kept later => exact .written (ih later)

/-- Writing line feeds out puts no letter behind a backslash that had none behind it. -/
theorem WritesOut.head?_eq_iff (writes : WritesOut s t) :
    s.head? = some 'n' ↔ t.head? = some 'n' := by
  cases writes with
  | nil => exact Iff.rfl
  | kept => exact Iff.rfl
  | written => simp

theorem writesOut_readLineFeeds (t : Text) : WritesOut (readLineFeeds t) t := by
  fun_induction readLineFeeds t with
  | case1 => exact .nil
  | case2 r ih => exact .written ih
  | case3 c r _ ih => exact .kept ih

/-- The scan leaves no line feed in letters, for none comes about where one has been read. -/
theorem not_feedInLetters_infix_readLineFeeds (t : Text) :
    ¬ feedInLetters <:+: readLineFeeds t := by
  fun_induction readLineFeeds t with
  | case1 => decide
  | case2 r ih => exact not_pair_infix_cons_iff.mpr ⟨by simp, ih⟩
  | case3 c r other ih =>
    refine not_pair_infix_cons_iff.mpr ⟨fun torn => ?_, ih⟩
    obtain ⟨rfl, letter⟩ := torn
    rw [(writesOut_readLineFeeds r).head?_eq_iff] at letter
    obtain ⟨later, rfl⟩ := List.head?_eq_some_iff.mp letter
    exact other later rfl rfl

/-- A text is read back from every way to write its line feeds, if none of them is in letters. -/
theorem readLineFeeds_of_free (writes : WritesOut s t) (free : ¬ feedInLetters <:+: s) :
    readLineFeeds t = s := by
  induction writes with
  | nil => rfl
  | kept rest ih =>
    obtain ⟨other, free⟩ := not_pair_infix_cons_iff.mp free
    rw [rest.head?_eq_iff] at other
    rw [readLineFeeds_cons other, ih free]
  | written rest ih =>
    obtain ⟨-, free⟩ := not_pair_infix_cons_iff.mp free
    rw [readLineFeeds, ih free]

theorem readLineFeeds_eq_iff :
    readLineFeeds t = s ↔ WritesOut s t ∧ ¬ feedInLetters <:+: s := by
  constructor
  · rintro rfl
    exact ⟨writesOut_readLineFeeds t, not_feedInLetters_infix_readLineFeeds t⟩
  · intro read
    exact readLineFeeds_of_free read.1 read.2

/-- It does not show which line feeds were in letters. -/
theorem readLineFeeds_of_writesOut (writes : WritesOut s t) :
    readLineFeeds t = readLineFeeds s :=
  readLineFeeds_of_free ((writesOut_readLineFeeds s).trans writes)
    (not_feedInLetters_infix_readLineFeeds s)

end Letters

end PromptAudit.Text
