import PromptAudit.Proofs.Text.Feed
import PromptAudit.Proofs.Wording.Live

namespace PromptAudit.Wording

/-- A body without the line feed that ends the opening line, which only verbatim text can hold. -/
inductive Opened : List Piece → List Piece → Prop
  | feed {t : Text} {rest : List Piece} :
      Opened (.verbatim ('\n' :: t) :: rest) (.verbatim t :: rest)
  | plain {pieces : List Piece} (other : ∀ t rest, pieces ≠ .verbatim ('\n' :: t) :: rest) :
      Opened pieces pieces

/-- No line feed is written out. -/
def Feedless (pieces : List Piece) : Prop := ∀ t, .verbatim t ∈ pieces → '\n' ∉ t

/-- The text of a body up to its last written line feed, and the pieces behind it. Without a
written line feed all pieces are behind. -/
inductive LastFeed : List Piece → Text → List Piece → Prop
  | absent {pieces : List Piece} (feedless : Feedless pieces) : LastFeed pieces [] pieces
  | present {before after : List Piece} {s u : Text} (feedless : Feedless (.verbatim u :: after)) :
      LastFeed (before ++ .verbatim (s ++ '\n' :: u) :: after) (texts before ++ s ++ ['\n'])
        (.verbatim u :: after)

/-- Nothing but written white space. -/
def OnlySpace (pieces : List Piece) : Prop :=
  ∀ p ∈ pieces, ∃ t, p = .verbatim t ∧ Text.blank t = true

theorem dropFirstFeed_opened (pieces : List Piece) : Opened pieces (dropFirstFeed pieces) := by
  unfold dropFirstFeed
  split
  · exact .feed
  · rename_i other
    exact .plain other

theorem exists_lastFeed (pieces : List Piece) : ∃ upto trail, LastFeed pieces upto trail := by
  induction pieces with
  | nil => exact ⟨[], [], .absent fun t ht => absurd ht List.not_mem_nil⟩
  | cons p rest ih =>
    obtain ⟨upto, trail, cut⟩ := ih
    cases cut with
    | @present before after s u feedless => exact ⟨_, _, @LastFeed.present (p :: before) _ _ _ feedless⟩
    | absent feedless =>
      by_cases h : ∃ t, p = .verbatim t ∧ '\n' ∈ t
      · obtain ⟨t, rfl, feed⟩ := h
        obtain ⟨back, front, reversed, last⟩ :=
          List.eq_append_cons_of_mem (List.mem_reverse.mpr feed)
        have parts : t = front.reverse ++ '\n' :: back.reverse := by
          rw [← List.reverse_reverse t, reversed]
          simp
        rw [parts]
        refine ⟨_, _, @LastFeed.present [] rest _ _ fun u hu => ?_⟩
        rcases List.mem_cons.mp hu with same | later
        · cases same
          exact fun bad => last (List.mem_reverse.mp bad)
        · exact feedless u later
      · refine ⟨_, _, .absent fun t ht => ?_⟩
        rcases List.mem_cons.mp ht with same | later
        · exact fun feed => h ⟨t, same.symm, feed⟩
        · exact feedless t later

theorem onlySpace_iff {pieces : List Piece} :
    OnlySpace pieces ↔ pieces.all Piece.isBlank = true := by
  rw [List.all_eq_true]
  refine forall₂_congr fun p _ => ?_
  cases p <;> simp [Piece.isBlank]

theorem texts_breakLines (p : Piece) : texts p.breakLines = p.text := by
  cases p with
  | verbatim t =>
    calc texts (Piece.verbatim t).breakLines = (Text.feedLines t).flatten := by
          rw [texts, Piece.breakLines, List.flatMap_map, List.flatMap_def]
          exact congrArg List.flatten (List.map_id _)
      _ = t := Text.flatten_feedLines t
  | decoded t => simp [Piece.breakLines]
  | live s => simp [Piece.breakLines]

theorem texts_flatMap_breakLines (ps : List Piece) : texts (ps.flatMap Piece.breakLines) = texts ps := by
  induction ps with
  | nil => rfl
  | cons p ps ih => rw [List.flatMap_cons, texts_append, ih, texts_breakLines, texts_cons]

theorem all_isBlank_breakLines (p : Piece) : p.breakLines.all Piece.isBlank = p.isBlank := by
  cases p with
  | verbatim t =>
    calc (Piece.verbatim t).breakLines.all Piece.isBlank = (Text.feedLines t).all Text.blank := by
          rw [Piece.breakLines, List.all_map]
          rfl
      _ = Text.blank (Text.feedLines t).flatten := by
          rw [Text.blank, List.all_flatten]
          rfl
      _ = Text.blank t := by rw [Text.flatten_feedLines]
  | decoded t => rfl
  | live s => rfl

theorem all_isBlank_flatMap_breakLines (ps : List Piece) :
    (ps.flatMap Piece.breakLines).all Piece.isBlank = ps.all Piece.isBlank := by
  induction ps with
  | nil => rfl
  | cons p ps ih =>
    rw [List.flatMap_cons, List.all_append, ih, all_isBlank_breakLines, List.all_cons]

theorem not_endsLine_of_feedless {ps : List Piece} (h : Feedless ps) :
    ∀ p ∈ ps.flatMap Piece.breakLines, p.endsLine = false := by
  intro p hp
  obtain ⟨q, hq, cut⟩ := List.mem_flatMap.mp hp
  cases q with
  | verbatim t =>
    obtain ⟨line, hline, rfl⟩ := List.mem_map.mp cut
    have inside : ∀ c ∈ line, c ∈ t := fun c hc =>
      Text.flatten_feedLines t ▸ List.mem_flatten.mpr ⟨line, hline, hc⟩
    simp only [Piece.endsLine, decide_eq_false_iff_not]
    exact fun ends => h t hq (inside _ (List.mem_of_getLast? ends))
  | decoded t => cases List.mem_singleton.mp cut; rfl
  | live s => cases List.mem_singleton.mp cut; rfl

/-- The last piece ends a line, if there is any. -/
def Closed (ps : List Piece) : Prop := ∀ p ∈ ps.getLast?, p.endsLine = true

/-- Behind the last written line feed nothing ends a line, and what is in front of it is closed. -/
theorem LastFeed.exists_front {pieces trail : List Piece} {upto : Text}
    (h : LastFeed pieces upto trail) :
    ∃ front, pieces.flatMap Piece.breakLines = front ++ trail.flatMap Piece.breakLines ∧
      Closed front ∧ texts front = upto ∧ Feedless trail := by
  cases h with
  | absent feedless => exact ⟨[], rfl, fun p hp => absurd hp (by simp), rfl, feedless⟩
  | @present before after s u feedless =>
    have cut : (Piece.verbatim (s ++ '\n' :: u)).breakLines =
        (Piece.verbatim (s ++ ['\n'])).breakLines ++ (Piece.verbatim u).breakLines := by
      simp only [Piece.breakLines]
      rw [Text.feedLines_append_feed, List.map_append]
    refine ⟨before.flatMap Piece.breakLines ++ (Piece.verbatim (s ++ ['\n'])).breakLines,
      ?_, ?_, ?_, feedless⟩
    · simp [cut]
    · intro p hp
      obtain ⟨line, last, ends⟩ := Text.getLast?_feedLines_feed s
      have tail : (Piece.verbatim (s ++ ['\n'])).breakLines.getLast? = some (.verbatim line) := by
        rw [Piece.breakLines, List.getLast?_map, last, Option.map_some]
      rw [List.getLast?_append, tail] at hp
      cases hp
      simp [Piece.endsLine, ends]
    · rw [texts_append, texts_flatMap_breakLines, texts_breakLines, List.append_assoc]
      rfl

theorem gather_ne_nil {ps : List Piece} (h : ps ≠ []) : gather ps ≠ [] := fun none =>
  h (by rw [← flatten_gather ps, none, List.flatten_nil])

theorem Closed.tail {p : Piece} {ps : List Piece} (h : Closed (p :: ps)) : Closed ps := by
  cases ps with
  | nil => exact fun q hq => absurd hq (by simp)
  | cons r rest => exact fun q hq => h q (by rw [List.getLast?_cons_cons]; exact hq)

theorem Closed.ne_nil_of_open {p : Piece} {ps : List Piece} (h : Closed (p :: ps))
    (opened : ¬ p.endsLine = true) : ps ≠ [] := by
  rintro rfl
  exact opened (h p rfl)

theorem gather_append {front : List Piece} (closed : Closed front) (back : List Piece) :
    gather (front ++ back) = gather front ++ gather back := by
  induction front with
  | nil => rfl
  | cons p rest ih =>
    simp only [List.cons_append, gather]
    split
    · rw [ih closed.tail, List.cons_append]
    · rename_i opened
      rw [ih closed.tail]
      cases h : gather rest with
      | nil => exact absurd h (gather_ne_nil (closed.ne_nil_of_open opened))
      | cons line lines => rfl

theorem gather_of_open {back : List Piece} (opened : ∀ p ∈ back, p.endsLine = false) :
    gather back = if back = [] then [] else [back] := by
  induction back with
  | nil => rfl
  | cons p rest ih =>
    rw [gather, if_neg (by simp [opened p List.mem_cons_self]),
      ih fun q hq => opened q (List.mem_cons_of_mem _ hq), if_neg (List.cons_ne_nil p rest)]
    split
    · rename_i none
      split at none
      · rename_i empty
        rw [empty]
      · cases none
    · rename_i line lines some
      split at some
      · cases some
      · cases some
        rfl

theorem not_terminator_of_closed {ps : List Piece} (closed : Closed ps) :
    ∀ line ∈ (gather ps).getLast?, isTerminatorIndent line = false := by
  induction ps with
  | nil => exact fun line hline => absurd hline (by simp [gather])
  | cons p rest ih =>
    intro line hline
    have later := ih closed.tail
    rw [gather] at hline
    split at hline
    · rename_i ends
      cases h : gather rest with
      | nil =>
        rw [h] at hline
        cases hline
        simp [isTerminatorIndent, ends]
      | cons first others =>
        rw [h, List.getLast?_cons_cons, ← h] at hline
        exact later line hline
    · rename_i opened
      cases h : gather rest with
      | nil => exact absurd h (gather_ne_nil (closed.ne_nil_of_open opened))
      | cons first others =>
        rw [h] at hline later
        cases others with
        | nil =>
          rw [List.getLast?_singleton, Option.mem_some] at hline
          subst hline
          have shut := later first rfl
          simp only [isTerminatorIndent, List.all_cons, Bool.and_eq_false_iff] at shut ⊢
          exact .inr shut
        | cons second others =>
          simp only [List.getLast?_cons_cons] at hline later
          exact later line hline

theorem flatten_dropTerminator {front back : List Piece} (closed : Closed front)
    (opened : ∀ p ∈ back, p.endsLine = false) :
    (dropTerminator (gather (front ++ back))).flatten =
      if back.all Piece.isBlank = true then front else front ++ back := by
  rw [gather_append closed, gather_of_open opened]
  by_cases empty : back = []
  · have kept : dropTerminator (gather front) = gather front := by
      rw [dropTerminator, if_neg]
      rw [Option.any_eq_true]
      rintro ⟨line, last, terminator⟩
      simp [not_terminator_of_closed closed line last] at terminator
    simp [empty, kept, flatten_gather]
  · have terminator : isTerminatorIndent back = back.all Piece.isBlank := by
      rw [isTerminatorIndent, Bool.eq_iff_iff, List.all_eq_true, List.all_eq_true]
      refine forall₂_congr fun p hp => ?_
      simp [opened p hp]
    rw [if_neg empty, dropTerminator, List.getLast?_concat, Option.any_some, terminator]
    split
    · rw [List.dropLast_concat, flatten_gather]
    · rw [List.flatten_append, flatten_gather, List.flatten_singleton]

/-- A body that is not outdented says all that its pieces say up to the last written line feed,
and what stands behind it unless that is written white space only. -/
theorem text_ofHeredoc {pieces trail : List Piece} {upto : Text}
    (cut : LastFeed (dropFirstFeed pieces) upto trail) :
    (OnlySpace trail → text (ofHeredoc false pieces) = upto) ∧
    (¬ OnlySpace trail → text (ofHeredoc false pieces) = upto ++ texts trail) := by
  obtain ⟨front, parts, closed, same, feedless⟩ := cut.exists_front
  have left : content false pieces =
      if (trail.flatMap Piece.breakLines).all Piece.isBlank = true then front
      else front ++ trail.flatMap Piece.breakLines := by
    rw [← flatten_dropTerminator closed (not_endsLine_of_feedless feedless), ← parts]
    rfl
  rw [ofHeredoc_eq, text_merge, left, all_isBlank_flatMap_breakLines, onlySpace_iff]
  constructor
  · intro blank
    rw [if_pos blank, same]
  · intro shown
    rw [if_neg shown, texts_append, same, texts_flatMap_breakLines]

/-- A piece without the text of an escape or an interpolation. -/
def Piece.hollow : Piece → Piece
  | verbatim t => verbatim t
  | decoded _ => decoded []
  | live _ => live []

/-- An escape or an interpolation. -/
def Piece.foreign? : Piece → Option Piece
  | verbatim _ => none
  | p => some p

/-- The escapes and the interpolations of a body, in order. -/
def foreign (pieces : List Piece) : List Piece := pieces.filterMap Piece.foreign?

theorem breakLines_hollow (p : Piece) : p.hollow.breakLines = p.breakLines.map Piece.hollow := by
  cases p with
  | verbatim t => simp [Piece.hollow, Piece.breakLines]
  | decoded t => rfl
  | live s => rfl

theorem endsLine_hollow (p : Piece) : p.hollow.endsLine = p.endsLine := by
  cases p <;> rfl

theorem isBlank_hollow (p : Piece) : p.hollow.isBlank = p.isBlank := by
  cases p <;> rfl

theorem dropFirstFeed_hollow (ps : List Piece) :
    dropFirstFeed (ps.map Piece.hollow) = (dropFirstFeed ps).map Piece.hollow := by
  cases ps with
  | nil => rfl
  | cons p rest =>
    cases p with
    | decoded t => rfl
    | live s => rfl
    | verbatim t =>
      cases t with
      | nil => rfl
      | cons c t =>
        by_cases feed : c = '\n'
        · subst feed
          rfl
        · simp [dropFirstFeed, Piece.hollow, feed]

theorem gather_hollow (ps : List Piece) :
    gather (ps.map Piece.hollow) = (gather ps).map (List.map Piece.hollow) := by
  induction ps with
  | nil => rfl
  | cons p rest ih =>
    simp only [List.map_cons, gather, endsLine_hollow, ih]
    split
    · rfl
    · cases gather rest <;> rfl

theorem dropTerminator_hollow (lines : List Line) :
    dropTerminator (lines.map (List.map Piece.hollow)) =
      (dropTerminator lines).map (List.map Piece.hollow) := by
  have each (line : Line) :
      isTerminatorIndent (line.map Piece.hollow) = isTerminatorIndent line := by
    simp [isTerminatorIndent, List.all_map, Function.comp_def, endsLine_hollow, isBlank_hollow]
  simp only [dropTerminator, List.getLast?_map, Option.any_map, each]
  split
  · rw [List.map_dropLast]
  · rfl

theorem indent_hollow (line : Line) : indent (line.map Piece.hollow) = indent line := by
  induction line with
  | nil => rfl
  | cons p rest ih =>
    cases p with
    | verbatim t => simp only [List.map_cons, Piece.hollow, indent, ih]
    | decoded t => rfl
    | live s => rfl

theorem outdent_hollow (margin : Nat) (line : Line) :
    outdent margin (line.map Piece.hollow) = (outdent margin line).map Piece.hollow := by
  induction line generalizing margin with
  | nil => rfl
  | cons p rest ih =>
    cases p with
    | verbatim t =>
      simp only [List.map_cons, Piece.hollow, outdent, ih]
      split <;> rfl
    | decoded t => rfl
    | live s => rfl

theorem dedent_hollow (lines : List Line) :
    dedent (lines.map (List.map Piece.hollow)) = (dedent lines).map (List.map Piece.hollow) := by
  have blank (line : Line) : isBlankLine (line.map Piece.hollow) = isBlankLine line := by
    simp [isBlankLine, List.all_map, Function.comp_def, isBlank_hollow]
  have same : margin (lines.map (List.map Piece.hollow)) = margin lines := by
    simp [margin, List.filter_map, Function.comp_def, blank, indent_hollow]
  simp only [dedent, same, List.map_map]
  exact List.map_congr_left fun line _ => outdent_hollow _ line

theorem content_hollow (squiggly : Bool) (pieces : List Piece) :
    content squiggly (pieces.map Piece.hollow) = (content squiggly pieces).map Piece.hollow := by
  have lines : splitLines (dropFirstFeed (pieces.map Piece.hollow)) =
      (splitLines (dropFirstFeed pieces)).map (List.map Piece.hollow) := by
    rw [dropFirstFeed_hollow, splitLines, splitLines, ← gather_hollow, List.flatMap_map,
      List.map_flatMap]
    simp only [breakLines_hollow]
  simp only [content]
  split
  · rw [lines, dropTerminator_hollow, dedent_hollow, List.map_flatten]
  · rw [lines, dropTerminator_hollow, List.map_flatten]

/-- What is read when the pieces `kept` are left of a body: they say what the wording says, and
every escape and every interpolation is among them. -/
structure Leaves (pieces kept : List Piece) (w : Wording) : Prop where
  said : text w = texts kept
  foreign : foreign kept = foreign pieces

/-- What a heredoc body is read as. -/
structure Reads (squiggly : Bool) (pieces : List Piece) (w : Wording) : Prop where
  sources : sources w = pieceSources pieces
  shown : ∀ s, .fixed s ∈ w → s ≠ []
  parted : Parted w
  /-- Only the first line feed and the white space behind the last one are left out. -/
  said (plain : squiggly = false) : ∃ opened upto trail,
    Opened pieces opened ∧ LastFeed opened upto trail ∧
      (OnlySpace trail → text w = upto) ∧ (¬ OnlySpace trail → text w = upto ++ texts trail)
  /-- With other text in the escapes and the interpolations the same is left of the body. -/
  kept : ∃ kept, Leaves pieces kept w ∧
    ∀ others, others.map Piece.hollow = pieces.map Piece.hollow →
      ∃ left, left.map Piece.hollow = kept.map Piece.hollow ∧
        Leaves others left (ofHeredoc squiggly others)

theorem leaves_content (squiggly : Bool) (pieces : List Piece) :
    Leaves pieces (content squiggly pieces) (ofHeredoc squiggly pieces) where
  said := by rw [ofHeredoc_eq, text_merge]
  foreign := filterMap_content (fun _ => rfl) squiggly pieces

/-- A heredoc body is read without loss and without invention. -/
theorem reads_ofHeredoc (squiggly : Bool) (pieces : List Piece) :
    Reads squiggly pieces (ofHeredoc squiggly pieces) where
  sources := sources_ofHeredoc squiggly pieces
  shown := fun _ hs => ne_nil_of_mem_merge hs
  parted := parted_merge _
  said := by
    rintro rfl
    obtain ⟨upto, trail, cut⟩ := exists_lastFeed (dropFirstFeed pieces)
    exact ⟨_, upto, trail, dropFirstFeed_opened pieces, cut, text_ofHeredoc cut⟩
  kept := by
    refine ⟨content squiggly pieces, leaves_content squiggly pieces, fun others same => ?_⟩
    refine ⟨content squiggly others, ?_, leaves_content squiggly others⟩
    rw [← content_hollow, same, content_hollow]

end PromptAudit.Wording
