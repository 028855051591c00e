import Mathlib.Tactic.SplitIfs
import PromptAudit.Call.Basic

namespace PromptAudit

namespace Keywords

theorem lookup_filter_ne {key first : Text} (different : key ≠ first) (ps : List (Text × Nat)) :
    (ps.filter fun q => q.1 ≠ first).lookup key = ps.lookup key := by
  induction ps with
  | nil => rfl
  | cons p rest ih =>
    by_cases dropped : p.1 = first
    · have other : (key == p.1) = false := beq_eq_false_iff_ne.mpr (dropped ▸ different)
      rw [List.filter_cons_of_neg (by simp [dropped]), ih, List.lookup_cons, other]
    · rw [List.filter_cons_of_pos (by simp [dropped]), List.lookup_cons, List.lookup_cons, ih]

theorem has_append (ks ls : Keywords) (key : Text) :
    (ks ++ ls).has key = (ks.has key || ls.has key) := List.any_append

/-- Pairs written down behind others add the first pair of each key that is not there yet. -/
theorem foldl_put (ks : Keywords) (ps : List (Text × Nat)) :
    ps.foldl put ks = ks ++ (ofPairs ps).filter fun q => !ks.has q.1 := by
  induction ps generalizing ks with
  | nil => simp [ofPairs]
  | cons p rest ih =>
    have first : ofPairs (p :: rest) = p :: (ofPairs rest).filter fun q => !has [p] q.1 :=
      ih [p]
    have other (q : Text × Nat) : has [p] q.1 = decide (p.1 = q.1) := by simp [has]
    rw [List.foldl_cons, ih, first, put]
    by_cases known : ks.has p.1 = true
    · rw [if_pos known, List.filter_cons_of_neg (by simp [known]), List.filter_filter]
      refine congrArg _ (List.filter_congr fun q _ => ?_)
      by_cases same : p.1 = q.1
      · simp [← same, known]
      · simp [other, same]
    · rw [if_neg known, List.filter_cons_of_pos (by simp [known]), List.filter_filter,
        List.append_assoc]
      simp only [has_append, Bool.not_or, List.singleton_append]

theorem ofPairs_cons (p : Text × Nat) (rest : List (Text × Nat)) :
    ofPairs (p :: rest) = p :: (ofPairs rest).filter fun q => q.1 ≠ p.1 := by
  have first : ofPairs (p :: rest) = [p] ++ (ofPairs rest).filter fun q => !has [p] q.1 :=
    foldl_put [p] rest
  rw [first, List.singleton_append]
  refine congrArg _ (List.filter_congr fun q _ => ?_)
  simp [has, eq_comm]

theorem ofPairs_filter (keep : Text → Bool) (ps : List (Text × Nat)) :
    ofPairs (ps.filter fun q => keep q.1) = (ofPairs ps).filter fun q => keep q.1 := by
  induction ps with
  | nil => rfl
  | cons p rest ih =>
    rw [ofPairs_cons, List.filter_cons, List.filter_cons]
    split_ifs with kept
    · rw [ofPairs_cons, ih, List.filter_filter, List.filter_filter]
      simp only [Bool.and_comm]
    · rw [ih, List.filter_filter]
      refine List.filter_congr fun q _ => ?_
      by_cases same : q.1 = p.1 <;> simp [same, kept]

theorem ofPairs_ofPairs (ps : List (Text × Nat)) : ofPairs (ofPairs ps) = ofPairs ps := by
  induction ps with
  | nil => rfl
  | cons p rest ih =>
    rw [ofPairs_cons, ofPairs_cons, ofPairs_filter fun key => key ≠ p.1, ih, List.filter_filter]
    simp only [Bool.and_self]

/-- Collected pairs may be collected again with others. -/
theorem foldl_put_ofPairs (ks : Keywords) (ps : List (Text × Nat)) :
    (ofPairs ps).foldl put ks = ps.foldl put ks := by
  rw [foldl_put, foldl_put, ofPairs_ofPairs]

/-- Keys stand in the order in which they are first given. -/
theorem map_fst_ofPairs (ps : List (Text × Nat)) :
    (ofPairs ps).map Prod.fst = (ps.map Prod.fst).eraseDups := by
  match ps with
  | [] => rfl
  | p :: rest =>
    calc (ofPairs (p :: rest)).map Prod.fst
        = p.1 :: (ofPairs (rest.filter fun q => q.1 ≠ p.1)).map Prod.fst := by
          rw [ofPairs_cons, ofPairs_filter fun key => key ≠ p.1, List.map_cons]
      _ = p.1 :: ((rest.filter fun q => q.1 ≠ p.1).map Prod.fst).eraseDups := by
          rw [map_fst_ofPairs]
      _ = ((p :: rest).map Prod.fst).eraseDups := by
          rw [List.map_cons, List.eraseDups_cons, List.filter_map]
          simp only [Function.comp_def, ne_eq, decide_not, Bool.beq_eq_decide_eq]
termination_by ps.length
decreasing_by exact Nat.lt_succ_of_le (List.length_filter_le _ _)

/-- Each key keeps its first value. -/
theorem get?_ofPairs (ps : List (Text × Nat)) (key : Text) :
    (ofPairs ps).get? key = ps.lookup key := by
  unfold get?
  induction ps with
  | nil => rfl
  | cons p rest ih =>
    rw [ofPairs_cons, List.lookup_cons, List.lookup_cons]
    by_cases same : key = p.1
    · rw [beq_iff_eq.mpr same]
    · rw [beq_eq_false_iff_ne.mpr same, lookup_filter_ne same, ih]

theorem ofPairs_eq_nil_iff {ps : List (Text × Nat)} : ofPairs ps = [] ↔ ps = [] := by
  cases ps with
  | nil => simp [ofPairs]
  | cons p rest => simp [ofPairs_cons]

end Keywords

namespace Tree

variable (t : Tree)

def hasValue (pair : Nat) : Bool := (t.pairValue pair).isSome

/-- What one argument gives: a pair itself, a hash its pairs. -/
def argumentPairs (i : Nat) : List (Text × Nat) :=
  if t.kind i = .pair then (t.entryOf i).toList
  else if t.type i = "hash" then (t.childrenOf i).filterMap t.entryOf
  else []

/-- The pairs among some arguments and in the hashes among them, in document order. -/
def keywordPairs (arguments : Nat) : List Nat :=
  (t.childrenOf arguments).flatMap fun i =>
    if t.kind i = .pair then [i]
    else if t.type i = "hash" then (t.childrenOf i).filter (t.kind · = .pair)
    else []

/-- The first pair with a key, among those that count. -/
def firstPair (counts : Nat → Bool) (arguments : Nat) (key : Text) : Option Nat :=
  (t.keywordPairs arguments).find? fun pair => t.pairKey pair = some key && counts pair

variable {t}

theorem type_of_kind_pair {i : Nat} (h : t.kind i = .pair) : t.type i = "pair" := by
  unfold kind at h
  split_ifs at h
  assumption

theorem kind_of_pairKey {i : Nat} {key : Text} (h : t.pairKey i = some key) : t.kind i = .pair := by
  unfold pairKey at h
  split_ifs at h
  assumption

theorem entryOf_eq_some_iff {i value : Nat} {key : Text} :
    t.entryOf i = some (key, value) ↔ t.pairKey i = some key ∧ t.pairValue i = some value := by
  unfold entryOf
  cases t.pairKey i <;> cases t.pairValue i <;> simp

theorem entryOf_of_kind {i : Nat} (h : t.kind i ≠ .pair) : t.entryOf i = none := by
  simp [entryOf, pairKey, h]

theorem mem_keywordPairs_iff {arguments pair : Nat} :
    pair ∈ t.keywordPairs arguments ↔
      t.kind pair = .pair ∧
      (pair ∈ t.childrenOf arguments ∨
        ∃ hash ∈ t.childrenOf arguments, t.type hash = "hash" ∧ pair ∈ t.childrenOf hash) := by
  simp only [keywordPairs, List.mem_flatMap]
  constructor
  · intro h
    obtain ⟨i, child, listed⟩ := h
    split_ifs at listed with isPair isHash
    · have same : pair = i := List.mem_singleton.mp listed
      exact ⟨same ▸ isPair, .inl (same ▸ child)⟩
    · have inner := List.mem_filter.mp listed
      exact ⟨of_decide_eq_true inner.2, .inr ⟨i, child, isHash, inner.1⟩⟩
    · exact absurd listed List.not_mem_nil
  · intro h
    obtain ⟨isPair, child | ⟨hash, child, isHash, inner⟩⟩ := h
    · exact ⟨pair, child, by simp [isPair]⟩
    · have notPair : t.kind hash ≠ .pair := by
        intro kind
        have type := type_of_kind_pair kind
        rw [isHash] at type
        exact absurd type (by decide)
      exact ⟨hash, child, by simp [notPair, isHash, inner, isPair]⟩

theorem filterMap_entryOf_pairs (nodes : List Nat) :
    (nodes.filter (t.kind · = .pair)).filterMap t.entryOf = nodes.filterMap t.entryOf := by
  rw [List.filterMap_filter]
  congr 1
  funext i
  by_cases isPair : t.kind i = .pair
  · simp [isPair]
  · simp [isPair, entryOf_of_kind isPair]

/-- A hash may be collected by itself first: the first value of a key is the same. -/
theorem argumentKeywords_eq_ofPairs (arguments : Nat) :
    t.argumentKeywords arguments =
      Keywords.ofPairs ((t.childrenOf arguments).flatMap t.argumentPairs) := by
  have step (ks : Keywords) (i : Nat) :
      t.withArgument ks i = (t.argumentPairs i).foldl Keywords.put ks := by
    unfold withArgument argumentPairs
    split_ifs
    · cases t.entryOf i <;> rfl
    · exact Keywords.foldl_put_ofPairs ks _
    · rfl
  have run (ks : Keywords) (nodes : List Nat) :
      nodes.foldl t.withArgument ks = (nodes.flatMap t.argumentPairs).foldl Keywords.put ks := by
    induction nodes generalizing ks with
    | nil => rfl
    | cons i rest ih =>
      rw [List.foldl_cons, step, ih, List.flatMap_cons, List.foldl_append]
  exact run [] _

theorem argumentKeywords_eq (arguments : Nat) :
    t.argumentKeywords arguments =
      Keywords.ofPairs ((t.keywordPairs arguments).filterMap t.entryOf) := by
  have each (i : Nat) : t.argumentPairs i =
      (if t.kind i = .pair then [i]
        else if t.type i = "hash" then (t.childrenOf i).filter (t.kind · = .pair)
        else []).filterMap t.entryOf := by
    unfold argumentPairs
    split_ifs
    · cases h : t.entryOf i <;> simp [h]
    · exact (filterMap_entryOf_pairs _).symm
    · rfl
  rw [argumentKeywords_eq_ofPairs, keywordPairs, List.filterMap_flatMap, funext each]

/-- A key is looked up in pairs as if those without a value were not there. -/
theorem get?_ofPairs_filterMap (pairs : List Nat) (key : Text) :
    (Keywords.ofPairs (pairs.filterMap t.entryOf)).get? key =
      (pairs.find? fun pair => t.pairKey pair = some key && t.hasValue pair).bind t.pairValue := by
  rw [Keywords.get?_ofPairs]
  induction pairs with
  | nil => rfl
  | cons i rest ih =>
    cases hk : t.pairKey i with
    | none =>
      have entry : t.entryOf i = none := by simp [entryOf, hk]
      simp [entry, hk, ih]
    | some k =>
      cases hv : t.pairValue i with
      | none =>
        have entry : t.entryOf i = none := by simp [entryOf, hv]
        simp [entry, hv, ih, hasValue]
      | some value =>
        have entry : t.entryOf i = some (k, value) := entryOf_eq_some_iff.mpr ⟨hk, hv⟩
        by_cases same : key = k
        · simp [entry, hk, hv, hasValue, same]
        · have other : (key == k) = false := beq_eq_false_iff_ne.mpr same
          simp [entry, hk, List.lookup_cons, other, ih, Ne.symm same]

/-- A key is missing when every pair with the key lacks a value. -/
theorem get?_ofPairs_eq_none_iff {pairs : List Nat} {key : Text} :
    (Keywords.ofPairs (pairs.filterMap t.entryOf)).get? key = none ↔
      ∀ pair ∈ pairs, t.pairKey pair = some key → t.hasValue pair = false := by
  rw [get?_ofPairs_filterMap]
  cases h : pairs.find? fun pair => t.pairKey pair = some key && t.hasValue pair with
  | none =>
    rw [List.find?_eq_none] at h
    simpa using h
  | some first =>
    have keyed := List.find?_some h
    simp only [Bool.and_eq_true, decide_eq_true_eq] at keyed
    obtain ⟨value, hv⟩ := Option.isSome_iff_exists.mp keyed.2
    refine iff_of_false (by simp [hv]) fun missing => ?_
    have none := missing first (List.mem_of_find?_eq_some h) keyed.1
    rw [keyed.2] at none
    cases none

theorem get?_argumentKeywords (arguments : Nat) (key : Text) :
    (t.argumentKeywords arguments).get? key =
      (t.firstPair t.hasValue arguments key).bind t.pairValue := by
  rw [argumentKeywords_eq, get?_ofPairs_filterMap, firstPair]

/-- A key is missing from a call and from its hash under `nested` when it is missing from both. -/
theorem keywordValue_eq_none_iff {c : Call} {nested key : Text} :
    t.keywordValue c nested key = none ↔
      c.keywords.get? key = none ∧
      ∀ hash, c.keywords.get? nested = some hash → t.type hash = "hash" →
        (t.hashKeywords hash).get? key = none := by
  unfold keywordValue
  cases c.keywords.get? key with
  | some value => simp
  | none =>
    cases h : c.keywords.get? nested with
    | none => simp [nestedKeywords, h]
    | some hash => by_cases isHash : t.type hash = "hash" <;> simp [nestedKeywords, h, isHash]

theorem hasSplat_iff {container : Nat} :
    t.hasSplat container = true ↔
      (∃ child ∈ t.childrenOf container, t.isSplat child = true) ∨
      t.type container ≠ "hash" ∧ ∃ hash ∈ t.childrenOf container, t.type hash = "hash" ∧
        ∃ child ∈ t.childrenOf hash, t.isSplat child = true := by
  simp only [hasSplat, List.any_eq_true, Bool.or_eq_true, Bool.and_eq_true, decide_eq_true_eq]
  constructor
  · intro h
    obtain ⟨i, child, splat | ⟨⟨list, hash⟩, inner⟩⟩ := h
    · exact .inl ⟨i, child, splat⟩
    · exact .inr ⟨list, i, child, hash, inner⟩
  · intro h
    obtain ⟨i, child, splat⟩ | ⟨list, i, child, hash, inner⟩ := h
    · exact ⟨i, child, .inl splat⟩
    · exact ⟨i, child, .inr ⟨⟨list, hash⟩, inner⟩⟩

/-- What a call reads from its node. -/
theorem call_eq_some {policy : Policy} {i : Nat} {c : Call} (h : t.call policy i = some c) :
    ∃ method, t.kind i = .call ∧ t.field i "method" = some method ∧
      c = ⟨i, t.text method, t.receiver policy (t.field i "receiver"),
        ((t.field i "arguments").map t.argumentKeywords).getD [],
        (t.field i "arguments").any t.hasSplat⟩ := by
  unfold call at h
  split_ifs at h with isCall
  obtain ⟨method, named, same⟩ := Option.map_eq_some_iff.mp h
  refine ⟨method, isCall, named, same.symm.trans ?_⟩
  cases t.field i "arguments" <;> rfl

theorem clientCall_eq_some_iff {policy : Policy} {methods : List Text} {i : Nat} {c : Call} :
    t.clientCall policy methods i = some c ↔
      t.call policy i = some c ∧ c.method ∈ methods ∧ c.receiver.isClient = true := by
  simp [clientCall, Option.filter_eq_some_iff]

end Tree

end PromptAudit
