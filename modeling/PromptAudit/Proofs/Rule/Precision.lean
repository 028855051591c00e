import PromptAudit.Proofs.Text.Lower
import PromptAudit.Proofs.Text.Occurrence
import PromptAudit.Proofs.Tree.Sketch
import PromptAudit.Rule.Temperature

namespace PromptAudit

/-- A text that the messages of an array say: the known text of the value of a `content:` pair that
stands in a hash among them. -/
inductive Tree.Says (t : Tree) (messages : Nat) (text : Text) : Prop
  | content {hash pair value : Nat} (message : hash ∈ t.childrenOf messages)
      (isHash : t.type hash = "hash") (inside : pair ∈ t.childrenOf hash)
      (key : t.pairKey pair = some "content".toList) (bound : t.pairValue pair = some value)
      (reads : t.fixedText value = some text) : Says t messages text

theorem Tree.mem_messageTexts_iff {t : Tree} {messages : Nat} {text : Text} :
    text ∈ t.messageTexts messages ↔ t.Says messages text ∧ text ≠ [] := by
  simp only [messageTexts, List.mem_flatMap, List.mem_filterMap, List.mem_filter,
    decide_eq_true_eq, Option.filter_eq_some_iff, Option.bind_eq_some_iff, Bool.not_eq_true',
    List.isEmpty_eq_false_iff]
  constructor
  · intro listed
    obtain ⟨hash, ⟨message, isHash⟩, pair, ⟨inside, key⟩, ⟨value, bound, reads⟩, filled⟩ := listed
    exact ⟨.content message isHash inside key bound reads, filled⟩
  · intro listed
    obtain ⟨⟨message, isHash, inside, key, bound, reads⟩, filled⟩ := listed
    exact ⟨_, ⟨message, isHash⟩, _, ⟨inside, key⟩, ⟨_, bound, reads⟩, filled⟩

namespace Rule

/-- Words that no white space divides. -/
def Undivided (words : List Text) : Prop := ∀ word ∈ words, ∀ c ∈ word, Text.isBlank c = false

instance (words : List Text) : Decidable (Undivided words) :=
  @List.decidableBAll _ _ (fun word => List.decidableBAll _ word) words

variable {words : List Text} {text : Text}

theorem isPrecisionTask_iff : isPrecisionTask words text = true ↔
    Text.blank text = false ∧ ∃ word ∈ words, word <:+: Text.lower text := by
  simp only [isPrecisionTask, Bool.and_eq_true, Bool.not_eq_true', List.any_eq_true,
    Text.occurs_iff]

/-- White space has no small form other than itself, so no word occurs in a blank text. -/
theorem not_blank_of_infix_lower {word : Text} (whole : ∀ c ∈ word, Text.isBlank c = false)
    (filled : word ≠ []) (occurs : word <:+: Text.lower text) : Text.blank text = false := by
  refine eq_false_of_ne_true fun blank => ?_
  rw [Text.lower, Text.lowerFrom_of_blank blank] at occurs
  obtain ⟨c, inside⟩ := List.exists_mem_of_ne_nil word filled
  have empty := List.all_eq_true.mp blank c (occurs.subset inside)
  rw [whole c inside] at empty
  cases empty

/-- Joined texts ask for accuracy just when one of them does. -/
theorem isPrecisionTask_join (undivided : Undivided words) {texts : List Text} :
    isPrecisionTask words (Text.join [' '] texts) = true ↔
      ∃ text ∈ texts, isPrecisionTask words text = true := by
  have space : Text.isBlank ' ' = true := by decide
  have free {word : Text} (listed : word ∈ words) : ' ' ∉ word := fun inside => by
    rw [undivided word listed ' ' inside] at space
    cases space
  simp only [isPrecisionTask_iff, Text.lower_join space]
  constructor
  · intro asks
    obtain ⟨shows, word, listed, occurs⟩ := asks
    by_cases empty : word = []
    · subst empty
      obtain ⟨text, among, shows⟩ := (Text.blank_join_eq_false_iff space).mp shows
      exact ⟨text, among, shows, [], listed, List.nil_infix⟩
    · obtain ⟨small, shrunk, occurs⟩ := (Text.infix_join_iff empty (free listed)).mp occurs
      obtain ⟨text, among, rfl⟩ := List.mem_map.mp shrunk
      exact ⟨text, among, not_blank_of_infix_lower (undivided word listed) empty occurs, word,
        listed, occurs⟩
  · intro asks
    obtain ⟨text, among, shows, word, listed, occurs⟩ := asks
    refine ⟨(Text.blank_join_eq_false_iff space).mpr ⟨text, among, shows⟩, word, listed, ?_⟩
    by_cases empty : word = []
    · rw [empty]
      exact List.nil_infix
    · exact (Text.infix_join_iff empty (free listed)).mpr
        ⟨Text.lower text, List.mem_map_of_mem among, occurs⟩

theorem isPrecisionTask_messages {t : Tree} {messages : Nat} (undivided : Undivided words) :
    isPrecisionTask words (Text.join [' '] (t.messageTexts messages)) = true ↔
      ∃ text, t.Says messages text ∧ isPrecisionTask words text = true := by
  rw [isPrecisionTask_join undivided]
  constructor
  · intro asks
    obtain ⟨text, listed, asks⟩ := asks
    exact ⟨text, (Tree.mem_messageTexts_iff.mp listed).1, asks⟩
  · intro asks
    obtain ⟨text, said, asks⟩ := asks
    refine ⟨text, Tree.mem_messageTexts_iff.mpr ⟨said, ?_⟩, asks⟩
    rintro rfl
    cases asks

/-- An array of messages has a content, and that asks for accuracy just when one of the texts that
the messages say does so by itself, provided that no white space divides a word. An array that says
all of these texts, in any order and among others, asks for it as well. -/
theorem messages_ask_singly (words : List Text) (undivided : Undivided words) {t : Tree}
    {messages : Nat} (isArray : t.type messages = "array") :
    ∃ content, t.messageContent messages = some content ∧
      (isPrecisionTask words content = true ↔
        ∃ text, t.Says messages text ∧ isPrecisionTask words text = true) ∧
      ∀ (other : Tree) (longer : Nat), other.type longer = "array" →
        (∀ text, t.Says messages text → other.Says longer text) →
        isPrecisionTask words content = true →
          (other.messageContent longer).any (isPrecisionTask words) = true := by
  refine ⟨_, if_pos isArray, isPrecisionTask_messages undivided, ?_⟩
  intro other longer isArray keeps asks
  obtain ⟨text, said, asks⟩ := (isPrecisionTask_messages undivided).mp asks
  rw [Tree.messageContent, if_pos isArray, Option.any_some]
  exact (isPrecisionTask_messages undivided).mpr ⟨text, keeps text said, asks⟩

open Tree.Shape (plain held)
open Tree.Forest (leaf only)

/-- The messages `[{content: "ΛΟΓΟΣ"}, {content: "x"}]`, whose first text ends in a sigma. -/
def lettered : Tree where
  source := Text.encode "[\x7bcontent: \"ΛΟΓΟΣ\"\x7d, \x7bcontent: \"x\"\x7d]\n".toList
  root := plain "program" 0 42
  children :=
    only (plain "array" 0 41) <|
      .more (plain "hash" 1 24)
        (only (plain "pair" 2 23) <|
          leaf (held "key" "hash_key_symbol" 2 9) <|
          only (held "value" "string" 11 23) <| leaf (plain "string_content" 12 22) .none) <|
      only (plain "hash" 26 40) <|
        only (plain "pair" 27 39) <|
          leaf (held "key" "hash_key_symbol" 27 34) <|
          only (held "value" "string" 36 39) <| leaf (plain "string_content" 37 38) .none
  broken := false

/-- The final form of the sigma is found, although another text follows; a word of the end of the
first text and the start of the second is not. -/
theorem lettered_asks :
    Undivided ["λογος".toList] ∧ Undivided ["ςx".toList] ∧ lettered.type 1 = "array" ∧
    (lettered.messageContent 1).any (isPrecisionTask ["λογος".toList]) = true ∧
    lettered.messageContent 1 = some "ΛΟΓΟΣ x".toList ∧
    ¬ ∃ text, lettered.Says 1 text ∧ isPrecisionTask ["ςx".toList] text = true := by
  have whole : Undivided ["λογος".toList] := by decide +kernel
  have across : Undivided ["ςx".toList] := by decide +kernel
  have isArray : lettered.type 1 = "array" := by decide +kernel
  have joined : lettered.messageContent 1 = some "ΛΟΓΟΣ x".toList := by decide +kernel
  have said : lettered.Says 1 "ΛΟΓΟΣ".toList :=
    @Tree.Says.content lettered 1 _ 2 3 5 (by decide +kernel) (by decide +kernel)
      (by decide +kernel) (by decide +kernel) (by decide +kernel) (by decide +kernel)
  refine ⟨whole, across, isArray, ?_, joined, ?_⟩
  · obtain ⟨content, reads, asks, -⟩ := messages_ask_singly _ whole isArray
    rw [reads, Option.any_some]
    exact asks.mpr ⟨_, said, by decide +kernel⟩
  · obtain ⟨content, reads, asks, -⟩ := messages_ask_singly _ across isArray
    rw [joined, Option.some.injEq] at reads
    rw [← asks, ← reads]
    decide +kernel

end Rule

end PromptAudit
