import PromptAudit.Proofs.Text.Lines
import PromptAudit.Proofs.Text.Pieces

namespace PromptAudit.Text

/-- A text that can be an item between commas: it shows something, and it has neither commas nor
white space at its ends. -/
structure IsItem (t : Text) : Prop where
  filled : t ≠ []
  whole : ',' ∉ t
  starts : ∀ c ∈ t.head?, isBlank c = false
  ends : ∀ c ∈ t.getLast?, isBlank c = false

/-- Pieces that hold items in order: there may be white space around each item, and blank pieces
may stand everywhere. -/
inductive Holds : List Text → List Text → Prop
  | nil : Holds [] []
  | gap {gap : Text} {pieces items : List Text} (empty : blank gap = true)
      (later : Holds pieces items) : Holds (gap :: pieces) items
  | item {left t right : Text} {pieces items : List Text} (before : blank left = true)
      (after : blank right = true) (later : Holds pieces items) :
      Holds ((left ++ t ++ right) :: pieces) (t :: items)

/-- A text that lists items between commas. -/
def Lists (t : Text) (items : List Text) : Prop :=
  ∃ pieces, Holds pieces items ∧ t = join [','] pieces

variable {t : Text} {items pieces : List Text}

/-- Trimming leaves an item of a piece without commas, unless the piece is blank. -/
theorem isItem_trim (filled : trim t ≠ []) (whole : ',' ∉ t) : IsItem (trim t) := by
  obtain ⟨left, right, -, -, split⟩ := exists_margins t
  refine ⟨filled, ?_, ?_, ?_⟩
  · intro comma
    rw [split] at whole
    simp [comma] at whole
  · intro c first
    obtain ⟨later, core⟩ := List.head?_eq_some_iff.mp first
    exact not_blank_of_trim core
  · intro c last
    obtain ⟨front, core⟩ := List.getLast?_eq_some_iff.mp last
    apply eq_false_of_ne_true
    intro empty
    have gone := eq_nil_of_trim core (by simpa [blank] using empty)
    cases gone

theorem trimLeft_of_starts (starts : ∀ c ∈ t.head?, isBlank c = false) : trimLeft t = t := by
  cases t with
  | nil => rfl
  | cons c r => simp [trimLeft, starts c rfl]

theorem trim_of_isItem (h : IsItem t) : trim t = t := by
  have mirrored : trimLeft t.reverse = t.reverse := by
    apply trimLeft_of_starts
    rw [List.head?_reverse]
    exact h.ends
  rw [trim, trimLeft_of_starts h.starts, trimRight, mirrored, List.reverse_reverse]

theorem comma_not_mem_of_blank (h : blank t = true) : ∀ d ∈ t, (d == ',') = false := by
  intro d listed
  have empty := List.all_eq_true.mp h d listed
  apply beq_false_of_ne
  intro comma
  subst comma
  cases empty

/-- Pieces that hold items have no commas, so they are cut where they were joined. -/
theorem Holds.whole (h : Holds pieces items) (proper : ∀ i ∈ items, IsItem i) :
    ∀ piece ∈ pieces, ∀ d ∈ piece, (d == ',') = false := by
  induction h with
  | nil => simp
  | gap empty later ih =>
    rw [List.forall_mem_cons]
    exact ⟨comma_not_mem_of_blank empty, ih proper⟩
  | @item left t right pieces items before after later ih =>
    obtain ⟨first, others⟩ := List.forall_mem_cons.mp proper
    rw [List.forall_mem_cons]
    refine ⟨?_, ih others⟩
    intro d listed
    simp only [List.mem_append] at listed
    rcases listed with (inLeft | inside) | inRight
    · exact comma_not_mem_of_blank before d inLeft
    · apply beq_false_of_ne
      intro comma
      exact first.whole (comma ▸ inside)
    · exact comma_not_mem_of_blank after d inRight

theorem Holds.filter_trim (h : Holds pieces items) (proper : ∀ i ∈ items, IsItem i) :
    (pieces.map trim).filter (fun i => !i.isEmpty) = items := by
  induction h with
  | nil => rfl
  | gap empty later ih =>
    rw [List.map_cons, trim_of_blank empty]
    exact ih proper
  | @item left t right pieces items before after later ih =>
    obtain ⟨first, others⟩ := List.forall_mem_cons.mp proper
    rw [List.map_cons, trim_margins before after, trim_of_isItem first,
      List.filter_cons_of_pos (by simpa using first.filled), ih others]

/-- Any pieces hold what trimming leaves of them. -/
theorem holds_filter_trim (pieces : List Text) :
    Holds pieces ((pieces.map trim).filter fun i => !i.isEmpty) := by
  induction pieces with
  | nil => exact .nil
  | cons piece pieces ih =>
    obtain ⟨left, right, before, after, split⟩ := exists_margins piece
    rw [List.map_cons]
    by_cases empty : trim piece = []
    · have gap : blank piece = true := by
        rw [split, empty, List.nil_append, blank, List.all_append, Bool.and_eq_true]
        exact ⟨before, after⟩
      rw [List.filter_cons_of_neg (by simp [empty])]
      exact .gap gap ih
    · rw [List.filter_cons_of_pos (by simpa using empty)]
      have held := Holds.item (t := trim piece) before after ih
      rwa [List.append_assoc, ← split] at held

theorem Holds.of_items (items : List Text) : Holds items items := by
  induction items with
  | nil => exact .nil
  | cons t items ih =>
    have held : Holds (([] ++ t ++ []) :: items) (t :: items) := .item rfl rfl ih
    rwa [List.nil_append, List.append_nil] at held

theorem commaItems_join (pieces : List Text) (whole : ∀ piece ∈ pieces, ∀ d ∈ piece, (d == ',') = false) :
    commaItems (join [','] pieces) = (pieces.map trim).filter fun i => !i.isEmpty := by
  by_cases none : pieces = []
  · subst none
    rfl
  · rw [commaItems, pieces_join rfl none whole]

theorem isItem_of_mem_commaItems : ∀ i ∈ commaItems t, IsItem i := by
  intro i listed
  obtain ⟨trimmed, shown⟩ := List.mem_filter.mp listed
  obtain ⟨piece, here, same⟩ := List.mem_map.mp trimmed
  subst same
  apply isItem_trim (by simpa using shown)
  intro comma
  have free := free_of_mem_pieces here ',' comma
  cases free

/-- The items of a text are the only ones that it lists. -/
theorem commaItems_eq_iff : commaItems t = items ↔ (∀ i ∈ items, IsItem i) ∧ Lists t items := by
  constructor
  · intro same
    subst same
    refine ⟨isItem_of_mem_commaItems, pieces (· == ',') t, holds_filter_trim _, ?_⟩
    exact (join_pieces (fun _ => beq_iff_eq) t).symm
  · intro listing
    obtain ⟨proper, pieces, holds, same⟩ := listing
    rw [same, commaItems_join pieces (holds.whole proper), holds.filter_trim proper]

theorem commaItems_join_commaItems (t : Text) :
    commaItems (join [','] (commaItems t)) = commaItems t :=
  commaItems_eq_iff.mpr ⟨isItem_of_mem_commaItems, _, .of_items _, rfl⟩

end PromptAudit.Text
