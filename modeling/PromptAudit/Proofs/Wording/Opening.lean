import Mathlib.Data.List.TakeWhile
import PromptAudit.Wording.Tag

namespace PromptAudit.Wording

/-- A tag is a word. -/
def IsTag (tag : Text) : Prop := tag ≠ [] ∧ ∀ c ∈ tag, Text.isWordChar c = true

/-- The delimiter of a heredoc opening: the tag between two equal quotes, or the tag alone with
no further word character behind it. -/
inductive Delimits (tag : Text) : Text → Prop
  | quoted {q : Char} {rest : Text} (quote : isQuoteMark q = true) (word : IsTag tag) :
      Delimits tag (q :: (tag ++ q :: rest))
  | bare {rest : Text} (word : IsTag tag)
      (ends : ∀ c ∈ rest.head?, Text.isWordChar c = false) : Delimits tag (tag ++ rest)

/-- A text begins with a heredoc opening: two angle brackets, perhaps a tilde or a dash, and the
delimiter. -/
inductive Opens (tag : Text) : Text → Prop
  | mk {mark rest : Text} (marked : mark ∈ [[], ['~'], ['-']]) (delimited : Delimits tag rest) :
      Opens tag ('<' :: '<' :: (mark ++ rest))

/-- A heredoc with the tag opens somewhere in the text. -/
def OpensIn (tag s : Text) : Prop := ∃ rest, rest <:+ s ∧ Opens tag rest

/-- The first heredoc that opens in the text has the tag. -/
def OpensFirstIn (tag s : Text) : Prop :=
  ∃ rest, rest <:+ s ∧ Opens tag rest ∧
    ∀ other longer, longer <:+ s → Opens other longer → longer <:+ rest

theorem isWordChar_quoteMark {q : Char} (h : isQuoteMark q = true) : Text.isWordChar q = false := by
  simp only [isQuoteMark, Bool.or_eq_true, decide_eq_true_eq] at h
  rcases h with (rfl | rfl) | rfl <;> decide

private theorem takeWhile_word {tag rest : Text} (word : ∀ c ∈ tag, Text.isWordChar c = true)
    (ends : ∀ c ∈ rest.head?, Text.isWordChar c = false) :
    (tag ++ rest).takeWhile Text.isWordChar = tag ∧
      (tag ++ rest).dropWhile Text.isWordChar = rest := by
  rw [List.takeWhile_append_of_pos word, List.dropWhile_append_of_pos word]
  cases rest with
  | nil => simp
  | cons c r => simp [ends c (by simp)]

private theorem dropWhile_word_ends (s : Text) :
    ∀ c ∈ (s.dropWhile Text.isWordChar).head?, Text.isWordChar c = false := by
  intro c hc
  have stop := List.head?_dropWhile_not Text.isWordChar s
  rw [Option.mem_def.mp hc] at stop
  exact stop

private theorem isTag_takeWhile {s : Text} (h : (s.takeWhile Text.isWordChar).isEmpty = false) :
    IsTag (s.takeWhile Text.isWordChar) :=
  ⟨by simpa using h, fun _ hc => List.mem_takeWhile_imp hc⟩

theorem delimiter_eq_some_iff {tag s : Text} : delimiter s = some tag ↔ Delimits tag s := by
  constructor
  · intro h
    match s with
    | [] => simp [delimiter] at h
    | c :: r =>
      by_cases hq : isQuoteMark c = true
      · simp only [delimiter, hq, if_true, Bool.not_true, Bool.false_or, Bool.and_eq_true,
          decide_eq_true_eq, Bool.not_eq_true', Option.ite_none_right_eq_some,
          Option.some.injEq] at h
        obtain ⟨⟨closed, word⟩, rfl⟩ := h
        obtain ⟨rest, hrest⟩ : ∃ rest, r.dropWhile Text.isWordChar = c :: rest :=
          List.head?_eq_some_iff.mp closed
        have split := List.takeWhile_append_dropWhile (p := Text.isWordChar) (l := r)
        rw [hrest] at split
        have read : Delimits (r.takeWhile Text.isWordChar)
            (c :: (r.takeWhile Text.isWordChar ++ c :: rest)) := .quoted hq (isTag_takeWhile word)
        rwa [split] at read
      · simp only [delimiter, hq, if_false, Bool.not_false, Bool.true_or, Bool.true_and,
          Bool.false_eq_true, Bool.not_eq_true', Option.ite_none_right_eq_some,
          Option.some.injEq] at h
        obtain ⟨word, rfl⟩ := h
        have read : Delimits ((c :: r).takeWhile Text.isWordChar)
            ((c :: r).takeWhile Text.isWordChar ++ (c :: r).dropWhile Text.isWordChar) :=
          .bare (isTag_takeWhile word) (dropWhile_word_ends _)
        rwa [List.takeWhile_append_dropWhile] at read
  · intro h
    cases h with
    | @quoted q rest quote name =>
      have ends : ∀ c ∈ (q :: rest).head?, Text.isWordChar c = false := by
        intro c hc
        cases Option.some.inj hc
        exact isWordChar_quoteMark quote
      have parts := takeWhile_word name.2 ends
      simp [delimiter, quote, parts.1, parts.2, name.1]
    | @bare rest name ends =>
      have parts := takeWhile_word name.2 ends
      obtain ⟨c, r, rfl⟩ := List.exists_cons_of_ne_nil name.1
      have unquoted : isQuoteMark c = false := by
        by_contra hq
        have := isWordChar_quoteMark (by simpa using hq)
        rw [name.2 c (by simp)] at this
        cases this
      simp only [List.cons_append] at parts ⊢
      simp [delimiter, unquoted, parts.1]

private theorem Delimits.starts {tag s : Text} (h : Delimits tag s) :
    ∃ c r, s = c :: r ∧ (isQuoteMark c = true ∨ Text.isWordChar c = true) := by
  cases h with
  | quoted quote _ => exact ⟨_, _, rfl, .inl quote⟩
  | bare word _ =>
    obtain ⟨c, r, rfl⟩ := List.exists_cons_of_ne_nil word.1
    exact ⟨c, _, rfl, .inr (word.2 c (by simp))⟩

private theorem afterMark_mark {mark rest tag : Text} (marked : mark ∈ [[], ['~'], ['-']])
    (delimited : Delimits tag rest) : afterMark (mark ++ rest) = rest := by
  obtain ⟨c, r, rfl, class_c⟩ := delimited.starts
  simp only [List.mem_cons, List.not_mem_nil, or_false] at marked
  rcases marked with rfl | rfl | rfl
  · have tilde : c ≠ '~' := by
      intro same
      subst same
      revert class_c
      decide
    have dash : c ≠ '-' := by
      intro same
      subst same
      revert class_c
      decide
    simp [afterMark, tilde, dash]
  · rfl
  · rfl

private theorem exists_mark (s : Text) : ∃ mark ∈ [[], ['~'], ['-']], s = mark ++ afterMark s := by
  unfold afterMark
  split
  · exact ⟨['~'], by simp, rfl⟩
  · exact ⟨['-'], by simp, rfl⟩
  · exact ⟨[], by simp, rfl⟩

theorem tagAt_eq_some_iff {tag s : Text} : tagAt s = some tag ↔ Opens tag s := by
  constructor
  · intro h
    unfold tagAt at h
    split at h
    · rename_i r
      obtain ⟨mark, marked, split⟩ := exists_mark r
      have read := Opens.mk marked (delimiter_eq_some_iff.mp h)
      rwa [← split] at read
    · cases h
  · intro h
    cases h with
    | mk marked delimited =>
      simp only [tagAt, afterMark_mark marked delimited]
      exact delimiter_eq_some_iff.mpr delimited

/-- At most one heredoc opens at the start of a text. -/
theorem Opens.unique {tag other s : Text} (h : Opens tag s) (k : Opens other s) : tag = other :=
  Option.some.inj ((tagAt_eq_some_iff.mpr h).symm.trans (tagAt_eq_some_iff.mpr k))

private theorem not_opens_nil {tag : Text} : ¬ Opens tag [] := nofun

/-- Scanning finds exactly the openings of the text. -/
theorem mem_tags_iff {tag s : Text} : tag ∈ tags s ↔ OpensIn tag s := by
  unfold OpensIn
  induction s with
  | nil =>
    simp only [tags, List.not_mem_nil, List.suffix_nil, exists_eq_left, false_iff]
    exact not_opens_nil
  | cons c r ih =>
    simp only [tags, List.mem_append, Option.mem_toList, tagAt_eq_some_iff, ih,
      List.suffix_cons_iff, or_and_right, exists_or, exists_eq_left]

private theorem opensFirstIn_of_opens {tag s : Text} (h : Opens tag s) {other : Text} :
    OpensFirstIn other s ↔ tag = other := by
  constructor
  · intro h
    obtain ⟨rest, inside, opens, first⟩ := h
    have same : rest = s := inside.eq_of_length_le (first tag s (List.suffix_refl s) h).length_le
    subst same
    exact h.unique opens
  · intro same
    subst same
    exact ⟨s, List.suffix_refl s, h, fun _ _ inside _ => inside⟩

private theorem opensFirstIn_cons {c : Char} {r tag : Text} (h : ∀ other, ¬ Opens other (c :: r)) :
    OpensFirstIn tag (c :: r) ↔ OpensFirstIn tag r := by
  have later {x other : Text} (opens : Opens other x) : x <:+ c :: r ↔ x <:+ r := by
    rw [List.suffix_cons_iff, or_iff_right]
    intro whole
    exact h other (whole ▸ opens)
  constructor
  · intro h
    obtain ⟨rest, inside, opens, first⟩ := h
    exact ⟨rest, (later opens).mp inside, opens,
      fun other x hx ho => first other x ((later ho).mpr hx) ho⟩
  · intro h
    obtain ⟨rest, inside, opens, first⟩ := h
    exact ⟨rest, (later opens).mpr inside, opens,
      fun other x hx ho => first other x ((later ho).mp hx) ho⟩

theorem head?_tags_eq_some_iff {tag s : Text} :
    (tags s).head? = some tag ↔ OpensFirstIn tag s := by
  induction s with
  | nil =>
    simp only [tags, List.head?_nil, reduceCtorEq, false_iff]
    intro h
    obtain ⟨rest, inside, opens, -⟩ := h
    rw [List.suffix_nil.mp inside] at opens
    exact not_opens_nil opens
  | cons c r ih =>
    cases h : tagAt (c :: r) with
    | some first =>
      rw [opensFirstIn_of_opens (tagAt_eq_some_iff.mp h)]
      simp [tags, h]
    | none =>
      have closed : ∀ other, ¬ Opens other (c :: r) := by
        intro other opens
        rw [tagAt_eq_some_iff.mpr opens] at h
        cases h
      rw [opensFirstIn_cons closed, ← ih]
      simp [tags, h]

end PromptAudit.Wording
