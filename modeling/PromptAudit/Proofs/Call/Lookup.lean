import PromptAudit.Proofs.Call.Keyword
import PromptAudit.Proofs.Tree.Numbering
import PromptAudit.Proofs.Tree.Sketch

namespace PromptAudit.Tree

variable (t : Tree)

/-- The value of the first of some pairs that has the key and a value. -/
def FirstValue (key : Text) (value : Nat) (pairs : List Nat) : Prop :=
  ∃ before pair after, pairs = before ++ pair :: after ∧
    t.pairKey pair = some key ∧ t.pairValue pair = some value ∧
    ∀ earlier ∈ before, t.pairKey earlier = some key → t.pairValue earlier = none

/-- The keyword pairs of a call, with the pairs of a hash in the place of the hash. -/
def callPairs (i : Nat) : List Nat := (t.field i "arguments").elim [] t.keywordPairs

def hashPairs (hash : Nat) : List Nat := (t.childrenOf hash).filter (t.kind · = .pair)

variable {t} {policy : Policy} {i : Nat} {c : Call}

theorem keywordPairs_sublist (arguments : Nat) :
    (t.keywordPairs arguments).Sublist (t.descendants arguments) := by
  refine t.flatMap_childrenOf_sublist (fun c => ?_) arguments
  split_ifs
  · exact .cons_cons c (List.nil_sublist _)
  · exact .cons c (List.filter_sublist.trans (t.childrenOf_sublist c))
  · exact List.nil_sublist _

/-- The pairs of a call are listed in document order. -/
theorem callPairs_pairwise (i : Nat) : (t.callPairs i).Pairwise (· < ·) := by
  unfold callPairs
  cases t.field i "arguments" with
  | none => exact .nil
  | some arguments => exact (t.descendants_pairwise arguments).sublist (keywordPairs_sublist _)

theorem get?_ofPairs_eq_some_iff {pairs : List Nat} {key : Text} {value : Nat} :
    (Keywords.ofPairs (pairs.filterMap t.entryOf)).get? key = some value ↔
      t.FirstValue key value pairs := by
  rw [get?_ofPairs_filterMap, Option.bind_eq_some_iff]
  constructor
  · intro h
    obtain ⟨pair, first, bound⟩ := h
    obtain ⟨reads, before, after, parts, passed⟩ := List.find?_eq_some_iff_append.mp first
    simp only [Bool.and_eq_true, decide_eq_true_eq] at reads
    refine ⟨before, pair, after, parts, reads.1, bound, fun earlier listed keyed => ?_⟩
    simpa [keyed, hasValue] using passed earlier listed
  · intro h
    obtain ⟨before, pair, after, parts, keyed, bound, passed⟩ := h
    refine ⟨pair, List.find?_eq_some_iff_append.mpr ⟨?_, before, after, parts, ?_⟩, bound⟩
    · simp [keyed, hasValue, bound]
    · intro earlier listed
      by_cases same : t.pairKey earlier = some key
      · simp [same, hasValue, passed earlier listed same]
      · simp [same]

theorem keywords_of_call (called : t.call policy i = some c) :
    c.keywords = Keywords.ofPairs ((t.callPairs i).filterMap t.entryOf) := by
  obtain ⟨method, -, -, rfl⟩ := call_eq_some called
  cases passed : t.field i "arguments" with
  | none => simp [callPairs, passed, Keywords.ofPairs]
  | some arguments => simp [callPairs, passed, argumentKeywords_eq]

theorem hashKeywords_eq (hash : Nat) :
    t.hashKeywords hash = Keywords.ofPairs ((t.hashPairs hash).filterMap t.entryOf) := by
  rw [hashKeywords, hashPairs, filterMap_entryOf_pairs]

/-- Only pairs with a readable key and a value give a key. -/
theorem map_fst_filterMap_entryOf (pairs : List Nat) :
    (pairs.filterMap t.entryOf).map Prod.fst = (pairs.filter t.hasValue).filterMap t.pairKey := by
  rw [List.map_filterMap, List.filterMap_filter]
  congr 1
  funext pair
  cases key : t.pairKey pair <;> cases value : t.pairValue pair <;>
    simp [entryOf, hasValue, key, value]

theorem exists_get?_ofPairs_iff {pairs : List Nat} {key : Text} :
    (∃ value, (Keywords.ofPairs (pairs.filterMap t.entryOf)).get? key = some value) ↔
      ∃ pair ∈ pairs, t.pairKey pair = some key ∧ t.hasValue pair = true := by
  rw [← Option.isSome_iff_exists, ← Option.ne_none_iff_isSome, Ne, get?_ofPairs_eq_none_iff]
  simp

theorem keywordValue_eq_some_iff {under key : Text} {value : Nat} :
    t.keywordValue c (some under) key = some value ↔
      c.keywords.get? key = some value ∨
      c.keywords.get? key = none ∧ ∃ hash, c.keywords.get? under = some hash ∧
        t.type hash = "hash" ∧ (t.hashKeywords hash).get? key = some value := by
  unfold keywordValue
  cases flat : c.keywords.get? key with
  | some other => simp
  | none =>
    cases bound : c.keywords.get? under with
    | none => simp [nestedKeywords, bound]
    | some hash => by_cases isHash : t.type hash = "hash" <;> simp [nestedKeywords, bound, isHash]

/-- A keyword has the value of its first pair that has one, and keywords stand in the order of
these pairs. A lookup under another keyword goes on in the hash bound to that one, no deeper, and
only for a keyword that the call itself does not have. -/
theorem call_looks_up (called : t.call policy i = some c) :
    (t.callPairs i).Pairwise (· < ·) ∧
    (∀ key value, c.keywords.get? key = some value ↔ t.FirstValue key value (t.callPairs i)) ∧
    (∀ key, (∃ value, c.keywords.get? key = some value) ↔
      ∃ pair ∈ t.callPairs i, t.pairKey pair = some key ∧ t.hasValue pair = true) ∧
    c.keywords.map Prod.fst =
      (((t.callPairs i).filter t.hasValue).filterMap t.pairKey).eraseDups ∧
    (∀ key, t.keywordValue c none key = c.keywords.get? key) ∧
    ∀ under key value, t.keywordValue c (some under) key = some value ↔
      c.keywords.get? key = some value ∨
      c.keywords.get? key = none ∧ ∃ hash, c.keywords.get? under = some hash ∧
        t.type hash = "hash" ∧ t.FirstValue key value (t.hashPairs hash) := by
  have collected := keywords_of_call called
  refine ⟨callPairs_pairwise i, fun key value => ?_, fun key => ?_, ?_, fun key => ?_,
    fun under key value => ?_⟩
  · rw [collected, get?_ofPairs_eq_some_iff]
  · rw [collected, exists_get?_ofPairs_iff]
  · rw [collected, Keywords.map_fst_ofPairs, map_fst_filterMap_entryOf]
  · unfold keywordValue
    cases c.keywords.get? key <;> rfl
  · rw [keywordValue_eq_some_iff]
    simp only [hashKeywords_eq, get?_ofPairs_eq_some_iff]

open Shape (plain held)
open Forest (leaf only)

/-- The call `OpenAI::Client.new.chat` with a hash before the bare pairs, a pair without a value
and pairs under `parameters:`. -/
def strewn : Tree :=
  chatting "\x7bb: 1, a: 2\x7d, a: 3, k:, parameters: \x7bc:, c: 5, a: 6\x7d" <|
    .more (plain "hash" 24 36)
      (.more (plain "pair" 25 29)
        (leaf (held "key" "hash_key_symbol" 25 26) <| leaf (held "value" "integer" 28 29) .none) <|
      only (plain "pair" 31 35) <|
        leaf (held "key" "hash_key_symbol" 31 32) <| leaf (held "value" "integer" 34 35) .none) <|
    .more (plain "pair" 38 42)
      (leaf (held "key" "hash_key_symbol" 38 39) <| leaf (held "value" "integer" 41 42) .none) <|
    .more (plain "pair" 44 46) (leaf (held "key" "hash_key_symbol" 44 45) .none) <|
    only (plain "pair" 48 76) <|
      leaf (held "key" "hash_key_symbol" 48 58) <|
      only (held "value" "hash" 60 76) <|
        .more (plain "pair" 61 63) (leaf (held "key" "hash_key_symbol" 61 62) .none) <|
        .more (plain "pair" 65 69)
          (leaf (held "key" "hash_key_symbol" 65 66) <| leaf (held "value" "integer" 68 69) .none) <|
        only (plain "pair" 71 75) <|
          leaf (held "key" "hash_key_symbol" 71 72) <| leaf (held "value" "integer" 74 75) .none

theorem strewn_looks_up :
    ∃ c, strewn.call .standard 1 = some c ∧
      c.keywords = [("b".toList, 12), ("a".toList, 15), ("parameters".toList, 23)] ∧
      (strewn.callPairs 1).Pairwise (· < ·) ∧
      (∀ key value, c.keywords.get? key = some value ↔
        strewn.FirstValue key value [10, 13, 16, 19, 21]) ∧
      (∀ key, (∃ value, c.keywords.get? key = some value) ↔
        ∃ pair ∈ [10, 13, 16, 19, 21], strewn.pairKey pair = some key ∧
          strewn.hasValue pair = true) ∧
      c.keywords.map Prod.fst =
        ((strewn.callPairs 1).filter strewn.hasValue |>.filterMap strewn.pairKey).eraseDups ∧
      (∀ key, strewn.keywordValue c none key = c.keywords.get? key) ∧
      ∀ under key value, strewn.keywordValue c (some under) key = some value ↔
        c.keywords.get? key = some value ∨
        c.keywords.get? key = none ∧ ∃ hash, c.keywords.get? under = some hash ∧
          strewn.type hash = "hash" ∧ strewn.FirstValue key value (strewn.hashPairs hash) := by
  have listed : strewn.callPairs 1 = [10, 13, 16, 19, 21] := by decide +kernel
  have collected : (strewn.call .standard 1).map (·.keywords) =
      some [("b".toList, 12), ("a".toList, 15), ("parameters".toList, 23)] := by decide +kernel
  obtain ⟨c, called, keywords⟩ := Option.map_eq_some_iff.mp collected
  have lookup := call_looks_up called
  rw [listed] at lookup ⊢
  exact ⟨c, called, keywords, lookup⟩

example : (strewn.call .standard 1).map (fun c =>
    ["a", "b", "c", "k"].map fun key => strewn.keywordValue c (some "parameters".toList) key.toList) =
    some [some 15, some 12, some 28, none] := by
  decide +kernel

end PromptAudit.Tree
