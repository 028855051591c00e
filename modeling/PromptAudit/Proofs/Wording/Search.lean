import PromptAudit.Proofs.Text.Pattern
import PromptAudit.Proofs.Wording.Opening

namespace PromptAudit.Wording

open Text

/-- A word, and the quote of the first group once more. -/
def wordPattern : Pattern := .both (.group 2 (.run isWordChar)) (.echo 1)

def delimiterPattern : Pattern := .both (.group 1 (.option (.one isQuoteMark))) wordPattern

/-- What is searched for in a line; the second group is the tag. -/
def openingPattern : Pattern :=
  .both (.one (· = '<')) <| .both (.one (· = '<')) <|
    .both (.option (.one fun c => c = '~' || c = '-')) delimiterPattern

theorem take_eq_takeWhile (p : Char → Bool) (s : Text) :
    s.take (s.length - (s.dropWhile p).length) = s.takeWhile p := by
  have split := List.takeWhile_append_dropWhile (p := p) (l := s)
  have long : s.length - (s.dropWhile p).length = (s.takeWhile p).length := by
    rw [← congrArg List.length split, List.length_append, Nat.add_sub_cancel]
  calc s.take (s.length - (s.dropWhile p).length)
      = (s.takeWhile p ++ s.dropWhile p).take (s.takeWhile p).length := by rw [split, long]
    _ = s.takeWhile p := List.take_left

section Word

variable {s quote : Text}

theorem readings_word : wordPattern.readings ⟨s, [(1, quote)]⟩ =
    (leavings isWordChar s).flatMap fun rest =>
      if quote.isPrefixOf rest then
        [⟨rest.drop quote.length, [(2, s.take (s.length - rest.length)), (1, quote)]⟩]
      else [] := by
  simp only [wordPattern, Pattern.readings, List.map_map, List.flatMap_map]
  rfl

/-- Without a quote the longest word is read first. -/
theorem tag_of_bare : (wordPattern.readings ⟨s, [(1, [])]⟩).head?.map (·.group 2) =
    if (s.takeWhile isWordChar).isEmpty then none else some (some (s.takeWhile isWordChar)) := by
  rw [readings_word]
  cases s with
  | nil => rfl
  | cons c s =>
    by_cases h : isWordChar c = true
    · obtain ⟨others, least, -⟩ := exists_leavings (s := s) h
      have longest := take_eq_takeWhile isWordChar (c :: s)
      rw [List.dropWhile_cons_of_pos h] at longest
      rw [least, List.flatMap_cons, longest]
      simp [h]
    · simp [leavings_of_not (eq_false_of_ne_true h), h]

/-- No shorter word is followed by the quote, for a word character would be. -/
theorem tag_of_quoted {q : Char} (mark : isQuoteMark q = true) :
    (wordPattern.readings ⟨s, [(1, [q])]⟩).head?.map (·.group 2) =
      if (s.dropWhile isWordChar).head? = some q && !(s.takeWhile isWordChar).isEmpty
      then some (some (s.takeWhile isWordChar)) else none := by
  rw [readings_word]
  cases s with
  | nil => rfl
  | cons c s =>
    by_cases h : isWordChar c = true
    · obtain ⟨others, least, start⟩ := exists_leavings (s := s) h
      have longest := take_eq_takeWhile isWordChar (c :: s)
      rw [List.dropWhile_cons_of_pos h] at longest
      have shorter : ∀ rest ∈ others, [q].isPrefixOf rest = false := by
        intro rest left
        obtain ⟨d, t, rfl, word⟩ := start rest left
        have other : q ≠ d := by
          rintro rfl
          rw [isWordChar_quoteMark mark] at word
          cases word
        simp [List.isPrefixOf, other]
      have none : (others.flatMap fun rest => if [q].isPrefixOf rest then
          [(⟨rest.drop [q].length, [(2, (c :: s).take ((c :: s).length - rest.length)), (1, [q])]⟩ :
            Reading)] else []) = [] := by
        rw [List.flatMap_eq_nil_iff]
        intro rest left
        rw [shorter rest left]
        rfl
      rw [least, List.flatMap_cons, none, List.append_nil, longest, List.dropWhile_cons_of_pos h]
      cases closed : s.dropWhile isWordChar with
      | nil => simp [List.isPrefixOf]
      | cons d t =>
        by_cases same : d = q
        · subst same
          simp [List.isPrefixOf, h]
        · simp [List.isPrefixOf, same, Ne.symm same]
    · simp [leavings_of_not (eq_false_of_ne_true h), h]

/-- A quote starts no word, so leaving it out of the first group leads nowhere. -/
theorem readings_word_of_not {c : Char} (h : isWordChar c = false) :
    wordPattern.readings ⟨c :: s, [(1, quote)]⟩ = [] := by
  rw [readings_word, leavings_of_not h]
  rfl

end Word

theorem readings_delimiter_of_quote {q : Char} {s : Text} (mark : isQuoteMark q = true) :
    delimiterPattern.readings ⟨q :: s, []⟩ = wordPattern.readings ⟨s, [(1, [q])]⟩ := by
  have given : (Pattern.group 1 (.option (.one isQuoteMark))).readings ⟨q :: s, []⟩ =
      [⟨s, [(1, [q])]⟩, ⟨q :: s, [(1, [])]⟩] := by
    simp [Pattern.readings, Reading.remember, mark]
  rw [delimiterPattern, Pattern.readings, given, List.flatMap_cons, List.flatMap_cons,
    readings_word_of_not (isWordChar_quoteMark mark), List.flatMap_nil, List.append_nil,
    List.append_nil]

theorem readings_delimiter_of_not {s : Text} (bare : ∀ c ∈ s.head?, isQuoteMark c = false) :
    delimiterPattern.readings ⟨s, []⟩ = wordPattern.readings ⟨s, [(1, [])]⟩ := by
  have leftOut : (Pattern.group 1 (.option (.one isQuoteMark))).readings ⟨s, []⟩ =
      [⟨s, [(1, [])]⟩] := by
    cases s with
    | nil => rfl
    | cons c s => simp [Pattern.readings, Reading.remember, bare c (by simp)]
  rw [delimiterPattern, Pattern.readings, leftOut, List.flatMap_cons, List.flatMap_nil,
    List.append_nil]

theorem tag_of_delimiter (s : Text) :
    (delimiterPattern.readings ⟨s, []⟩).head?.map (·.group 2) = (delimiter s).map some := by
  cases s with
  | nil => rfl
  | cons c s =>
    cases mark : isQuoteMark c with
    | true =>
      rw [readings_delimiter_of_quote mark, tag_of_quoted mark]
      simp only [delimiter, mark, Bool.not_true, Bool.false_or, if_true]
      split <;> rfl
    | false =>
      rw [readings_delimiter_of_not (by simpa using mark), tag_of_bare]
      simp only [delimiter, mark, Bool.not_false, Bool.true_or, Bool.true_and, Bool.false_eq_true,
        if_false]
      cases ((c :: s).takeWhile isWordChar).isEmpty <;> rfl

theorem readings_delimiter_of_neither {c : Char} {s : Text} (mark : isQuoteMark c = false)
    (word : isWordChar c = false) : delimiterPattern.readings ⟨c :: s, []⟩ = [] := by
  rw [readings_delimiter_of_not (by simpa using mark), readings_word_of_not word]

/-- Behind the angle brackets a mark that is left out leads nowhere, for it starts no delimiter. -/
theorem tag_of_marked (s : Text) :
    ((Pattern.both (.option (.one fun c => c = '~' || c = '-')) delimiterPattern).readings
      ⟨s, []⟩).head?.map (·.group 2) = (delimiter (afterMark s)).map some := by
  cases s with
  | nil => rfl
  | cons c s =>
    by_cases marked : c = '~' ∨ c = '-'
    · have nowhere : delimiterPattern.readings ⟨c :: s, []⟩ = [] := by
        rcases marked with rfl | rfl <;> exact readings_delimiter_of_neither rfl rfl
      have behind : afterMark (c :: s) = s := by
        rcases marked with rfl | rfl <;> rfl
      rw [behind, ← tag_of_delimiter]
      simp [Pattern.readings, marked, nowhere]
    · have behind : afterMark (c :: s) = c :: s := by
        rw [not_or] at marked
        simp [afterMark, marked]
      rw [behind, ← tag_of_delimiter]
      simp [Pattern.readings, marked]

/-- A match at the start of a text is the opening that stands there. -/
theorem first_opening (s : Text) :
    (openingPattern.first s).map (·.group 2) = (tagAt s).map some := by
  unfold Pattern.first openingPattern tagAt
  split
  · rw [← tag_of_marked]
    simp [Pattern.readings]
  · rename_i other
    cases s with
    | nil => rfl
    | cons c s =>
      by_cases first : c = '<'
      · subst first
        cases s with
        | nil => simp [Pattern.readings]
        | cons d s =>
          have second : d ≠ '<' := fun same => other s (by rw [same])
          simp [Pattern.readings, second]
      · simp [Pattern.readings, first]

theorem openingPattern_rest_within :
    (Pattern.both (.option (.one fun c => c = '~' || c = '-')) delimiterPattern).Within
      (· ≠ '<') := by
  refine ⟨?_, ?_, ?_, trivial⟩
  · rintro c named rfl
    cases named
  · rintro c named rfl
    cases named
  · rintro c named rfl
    cases named

/-- Behind its angle brackets an opening has no further ones. -/
theorem exists_taken {r : Text} {m : Reading}
    (read : openingPattern.first ('<' :: '<' :: r) = some m) :
    ∃ taken, r = taken ++ m.rest ∧ '<' ∉ taken := by
  have listed : m ∈ (Pattern.both (.option (.one fun c => c = '~' || c = '-'))
      delimiterPattern).readings ⟨r, []⟩ := by
    have head := List.mem_of_head? read
    simpa [openingPattern, Pattern.readings] using head
  obtain ⟨⟨taken, split, plain⟩, -⟩ :=
    Pattern.taken_within openingPattern_rest_within (by simp) listed
  exact ⟨taken, split, fun inside => plain '<' inside rfl⟩

theorem tagAt_cons_of_ne {c : Char} {s : Text} (h : c ≠ '<') : tagAt (c :: s) = none := by
  simp [tagAt, h]

theorem tags_append {taken s : Text} (free : '<' ∉ taken) : tags (taken ++ s) = tags s := by
  induction taken with
  | nil => rfl
  | cons c taken ih =>
    obtain ⟨other, free⟩ := not_or.mp (mt List.mem_cons.mpr free)
    rw [List.cons_append, tags, tagAt_cons_of_ne (Ne.symm other), ih free]
    rfl

/-- Where two angle brackets start an opening, the second one does not start another. -/
theorem tagAt_second {r tag : Text} (opens : tagAt ('<' :: '<' :: r) = some tag) :
    tagAt ('<' :: r) = none := by
  match r with
  | [] => rfl
  | c :: r =>
    by_cases h : c = '<'
    · subst h
      cases opens
    · simp [tagAt, h]

theorem exists_of_tagAt {s tag : Text} (opens : tagAt s = some tag) :
    ∃ r, s = '<' :: '<' :: r := by
  unfold tagAt at opens
  split at opens
  · exact ⟨_, rfl⟩
  · cases opens

/-- What a match takes along holds no further opening, so the search finds the openings at all
places of the line, each with its tag. -/
theorem search_eq_tags (line : Text) :
    (openingPattern.search line).map (·.group 2) = (tags line).map some := by
  induction h : line.length using Nat.strongRecOn generalizing line with
  | _ n ih =>
    subst h
    match line with
    | [] => rfl
    | c :: s =>
      have found := first_opening (c :: s)
      cases read : openingPattern.first (c :: s) with
      | none =>
        rw [read, Option.map_none] at found
        rw [Pattern.search_of_none read, tags, Option.map_eq_none_iff.mp found.symm]
        exact ih s.length (by simp) s rfl
      | some m =>
        rw [read, Option.map_some] at found
        obtain ⟨tag, opens, named⟩ := Option.map_eq_some_iff.mp found.symm
        obtain ⟨r, brackets⟩ := exists_of_tagAt opens
        obtain ⟨rfl, rfl⟩ := List.cons_eq_cons.mp brackets
        obtain ⟨taken, rfl, free⟩ := exists_taken read
        have behind : tags ('<' :: (taken ++ m.rest)) = tags m.rest := by
          rw [tags, tagAt_second opens, tags_append free]
          rfl
        have shorter : m.rest.length < ('<' :: '<' :: (taken ++ m.rest)).length := by
          simp only [List.length_cons, List.length_append]
          omega
        have next : openingPattern.search ('<' :: ('<' :: taken ++ m.rest)) =
            m :: openingPattern.search m.rest := Pattern.search_of_first read
        calc (openingPattern.search ('<' :: '<' :: (taken ++ m.rest))).map (·.group 2)
            = m.group 2 :: (openingPattern.search m.rest).map (·.group 2) :=
              congrArg (List.map _) next
          _ = some tag :: (tags m.rest).map some := by rw [← named, ih _ shorter m.rest rfl]
          _ = (tags ('<' :: '<' :: (taken ++ m.rest))).map some := by
            rw [tags, opens, behind]
            rfl

/-- The search with the pattern finds the heredoc openings of a line and nothing else. At a place
it matches just where an opening stands there, with its tag; it loses no opening to the match
before; and the tags that it finds are those of the openings in the line. -/
theorem search_finds_openings (line : Text) :
    (∀ s tag, ((openingPattern.first s).bind (·.group 2) = some tag ↔ Opens tag s)) ∧
    (openingPattern.search line).map (·.group 2) = (tags line).map some ∧
    ∀ tag, tag ∈ tags line ↔ OpensIn tag line := by
  refine ⟨fun s tag => ?_, search_eq_tags line, fun tag => mem_tags_iff⟩
  have matched := first_opening s
  rw [← tagAt_eq_some_iff]
  cases read : openingPattern.first s with
  | none =>
    rw [read, Option.map_none] at matched
    rw [Option.map_eq_none_iff.mp matched.symm]
    simp
  | some m =>
    rw [read, Option.map_some] at matched
    obtain ⟨found, opens, named⟩ := Option.map_eq_some_iff.mp matched.symm
    rw [Option.bind_some, ← named, opens]

end PromptAudit.Wording
