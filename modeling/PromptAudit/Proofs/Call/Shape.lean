import PromptAudit.Proofs.Tree.Copy
import PromptAudit.Rule.Termination

namespace PromptAudit

open Rule

namespace Tree

variable {t u : Tree} {policy : Policy} {n : Nat} {ps : List Nat} {c : Call}

/-- Pairs and splats that give at least one keyword and no `parameters:`. -/
structure Options (t : Tree) (ps : List Nat) : Prop where
  shapes {p : Nat} (listed : p ∈ ps) : t.type p = "pair" ∨ t.type p = "hash_splat_argument"
  plain {p : Nat} (listed : p ∈ ps) : t.pairKey p ≠ some parametersKey
  gives : ∃ p ∈ ps, ∃ entry, t.entryOf p = some entry

/-- The shapes in which a call passes options: one by one, in braces, or in the hash under
`parameters:`. -/
inductive Passes (t : Tree) (n : Nat) (ps : List Nat) : Prop
  | bare {arguments : Nat} (passed : t.field n "arguments" = some arguments)
      (options : t.childrenOf arguments = ps)
  | braced {arguments hash : Nat} (passed : t.field n "arguments" = some arguments)
      (list : t.type arguments ≠ "hash") (only : t.childrenOf arguments = [hash])
      (type : t.type hash = "hash") (options : t.childrenOf hash = ps)
  | wrapped {arguments pair hash : Nat} (passed : t.field n "arguments" = some arguments)
      (only : t.childrenOf arguments = [pair]) (keyed : t.pairKey pair = some parametersKey)
      (bound : t.pairValue pair = some hash) (type : t.type hash = "hash")
      (options : t.childrenOf hash = ps)

/-- What the rules read off a call is what its options say. -/
structure ReadsAs (t : Tree) (c : Call) (ps : List Nat) : Prop where
  given : c.keywords.isEmpty = false
  written : (c.keywords.get? parametersKey).all (t.type · = "hash") = true
  complete : t.keywordsComplete c parametersKey = !ps.any t.isSplat
  value {key : Text} (other : key ≠ parametersKey) :
    t.keywordValue c parametersKey key = (ps.filterMap t.entryOf).lookup key

theorem kind_of_type_pair {i : Nat} (type : t.type i = "pair") : t.kind i = .pair := by
  simp [kind, type]

theorem kind_ne_pair_of_hash {i : Nat} (type : t.type i = "hash") : t.kind i ≠ .pair := by
  intro kind
  rw [type_of_kind_pair kind] at type
  exact absurd type (by decide)

theorem argumentPairs_of_hash {hash : Nat} (type : t.type hash = "hash") :
    t.argumentPairs hash = (t.childrenOf hash).filterMap t.entryOf := by
  rw [argumentPairs, if_neg (kind_ne_pair_of_hash type), if_pos type]

theorem readsAs_of_parameters {hash : Nat} (keywords : c.keywords = [(parametersKey, hash)])
    (splatted : c.splatted = false) (type : t.type hash = "hash") (held : t.childrenOf hash = ps) :
    t.ReadsAs c ps := by
  have bound : c.keywords.get? parametersKey = some hash := by
    rw [keywords]
    rfl
  refine ⟨?_, ?_, ?_, fun {key} other => ?_⟩
  · rw [keywords]
    rfl
  · rw [bound, Option.all_some, type]
    rfl
  · have shallow : t.hasSplat hash = ps.any t.isSplat := by
      simp [hasSplat, held, type]
    rw [keywordsComplete, splatted, Option.bind_some, bound, Option.any_some, shallow]
    rfl
  · have missing : c.keywords.get? key = none := by
      simp [keywords, Keywords.get?, List.lookup_cons, beq_eq_false_iff_ne.mpr other]
    have nested : t.nestedKeywords c parametersKey = some (.ofPairs (ps.filterMap t.entryOf)) := by
      rw [nestedKeywords, bound, Option.bind_some, if_pos type, hashKeywords, held]
    rw [keywordValue, missing, Option.bind_some, nested, Option.bind_some, Keywords.get?_ofPairs]

namespace Options

variable (options : t.Options ps)

include options

theorem flatMap_argumentPairs : ps.flatMap t.argumentPairs = ps.filterMap t.entryOf := by
  rw [List.filterMap_eq_flatMap_toList]
  refine List.flatMap_congr fun p listed => ?_
  rcases options.shapes listed with pair | splat
  · rw [argumentPairs, if_pos (kind_of_type_pair pair)]
  · have kind : t.kind p ≠ .pair := fun kind => by
      rw [type_of_kind_pair kind] at splat
      exact absurd splat (by decide)
    rw [argumentPairs, if_neg kind, if_neg (by rw [splat]; decide), entryOf_of_kind kind]
    rfl

theorem type_ne_hash {p : Nat} (listed : p ∈ ps) : t.type p ≠ "hash" := by
  rcases options.shapes listed with type | type <;> rw [type] <;> decide

theorem lookup_parameters : (ps.filterMap t.entryOf).lookup parametersKey = none := by
  refine List.lookup_eq_none_iff.mpr fun entry listed => ?_
  obtain ⟨p, inside, reads⟩ := List.mem_filterMap.mp listed
  have keyed := (entryOf_eq_some_iff.mp reads).1
  refine bne_iff_ne.mpr fun same => options.plain inside ?_
  rw [keyed, same]

theorem filterMap_entryOf_ne_nil : ps.filterMap t.entryOf ≠ [] := by
  obtain ⟨p, listed, entry, reads⟩ := options.gives
  exact List.ne_nil_of_mem (List.mem_filterMap.mpr ⟨p, listed, reads⟩)

theorem readsAs_of_keywords (keywords : c.keywords = .ofPairs (ps.filterMap t.entryOf))
    (splatted : c.splatted = ps.any t.isSplat) : t.ReadsAs c ps := by
  have absent : c.keywords.get? parametersKey = none := by
    rw [keywords, Keywords.get?_ofPairs, options.lookup_parameters]
  refine ⟨?_, ?_, ?_, fun {key} other => ?_⟩
  · rw [keywords]
    exact List.isEmpty_eq_false_iff.mpr fun empty =>
      options.filterMap_entryOf_ne_nil (Keywords.ofPairs_eq_nil_iff.mp empty)
  · rw [absent]
    rfl
  · rw [keywordsComplete, splatted, Option.bind_some, absent]
    simp
  · rw [keywordValue, keywords, Keywords.get?_ofPairs]
    cases (ps.filterMap t.entryOf).lookup key with
    | none =>
      rw [Option.bind_some, nestedKeywords, absent]
      rfl
    | some value => rfl

/-- However a call passes its options, they are what is read. -/
theorem readsAs (passes : t.Passes n ps) (called : t.call policy n = some c) : t.ReadsAs c ps := by
  obtain ⟨method, -, -, rfl⟩ := call_eq_some called
  cases passes with
  | @bare arguments passed held =>
    apply options.readsAs_of_keywords
    · simp only [passed, Option.map_some, Option.getD_some, argumentKeywords_eq_ofPairs, held,
        options.flatMap_argumentPairs]
    · simp only [passed, Option.any_some, hasSplat, held]
      refine Bool.eq_iff_iff.mpr ?_
      simp only [List.any_eq_true]
      refine exists_congr fun p => and_congr_right fun listed => ?_
      simp [options.type_ne_hash listed]
  | @braced arguments hash passed list only type held =>
    apply options.readsAs_of_keywords
    · simp only [passed, Option.map_some, Option.getD_some, argumentKeywords_eq_ofPairs, only,
        List.flatMap_singleton, argumentPairs_of_hash type, held]
    · simp [passed, hasSplat, only, list, type, held, isSplat]
  | @wrapped arguments pair hash passed only keyed bound type held =>
    have isPair := kind_of_pairKey keyed
    have entry : t.entryOf pair = some (parametersKey, hash) := entryOf_eq_some_iff.mpr ⟨keyed, bound⟩
    apply readsAs_of_parameters _ _ type held
    · simp only [passed, Option.map_some, Option.getD_some, argumentKeywords_eq_ofPairs, only,
        List.flatMap_singleton, argumentPairs, if_pos isPair, entry]
      rfl
    · simp [passed, hasSplat, only, type_of_kind_pair isPair, isSplat]

end Options

namespace Kindred

variable {r : Nat → Nat → Prop} {i j : Nat} (kin : t.Kindred u r)

include kin

theorem messageTexts_eq (h : r i j) : t.messageTexts i = u.messageTexts j := by
  have texts (c d : Nat) (related : r c d) :
      ((t.pairValue c).bind t.fixedText).filter (!·.isEmpty) =
        ((u.pairValue d).bind u.fixedText).filter (!·.isEmpty) := by
    rw [bind_eq_of_matching (kin.pairValue related) fun _ _ => kin.fixedText_eq]
  have messages := filter_matching (p := (t.type · = "hash")) (q := (u.type · = "hash"))
    (fun c d related => by rw [kin.type related]) (kin.children h)
  refine flatMap_eq_of_matching (fun c d related => ?_) messages
  have contents := filter_matching (p := (t.pairKey · = some "content".toList))
    (q := (u.pairKey · = some "content".toList))
    (fun _ _ inner => by rw [kin.pairKey_eq inner]) (kin.children related)
  exact filterMap_eq_of_matching texts contents

theorem messageContent_eq (h : r i j) : t.messageContent i = u.messageContent j := by
  rw [messageContent, messageContent, kin.type h, kin.messageTexts_eq h]

theorem lookup_matching {qs : List Nat} (matched : List.Forall₂ r ps qs) (key : Text) :
    Option.Rel r ((ps.filterMap t.entryOf).lookup key) ((qs.filterMap u.entryOf).lookup key) :=
  PromptAudit.lookup_matching (List.rel_filterMap (fun _ _ h => kin.entryOf h) matched) key

theorem options {qs : List Nat} (matched : List.Forall₂ r ps qs) (options : t.Options ps) :
    u.Options qs where
  shapes listed := by
    obtain ⟨p, inside, related⟩ := exists_left_of_matching matched listed
    rw [← kin.type related]
    exact options.shapes inside
  plain listed := by
    obtain ⟨p, inside, related⟩ := exists_left_of_matching matched listed
    rw [← kin.pairKey_eq related]
    exact options.plain inside
  gives := by
    obtain ⟨p, listed, entry, reads⟩ := options.gives
    obtain ⟨q, inside, related⟩ := exists_right_of_matching matched listed
    have given := isSome_eq_of_matching (kin.entryOf related)
    rw [reads] at given
    exact ⟨q, inside, Option.isSome_iff_exists.mp given.symm⟩

end Kindred

end Tree

/-- Receivers that are resolved in the same way, wherever they stand. -/
inductive Receiver.Alike : Receiver → Receiver → Prop
  | constructed (n k : Nat) : Alike (.constructed n) (.constructed k)
  | traced (n o k p : Nat) : Alike (.traced n o) (.traced k p)
  | named (n k : Nat) : Alike (.named n) (.named k)
  | unknown (n k : Nat) : Alike (.unknown (some n)) (.unknown (some k))
  | absent : Alike (.unknown none) (.unknown none)

/-- Two calls that may differ in their arguments only. -/
structure Tree.Twins (t : Tree) (policy : Policy) (u : Tree) (n k : Nat) : Prop where
  call : t.kind n = .call ∧ u.kind k = .call
  method : (t.field n "method").map t.text = (u.field k "method").map u.text
  receiver : (t.receiver policy (t.field n "receiver")).Alike
    (u.receiver policy (u.field k "receiver"))
  scope : t.inPromptScope n = u.inPromptScope k

namespace Receiver.Alike

variable {a b : Receiver} (alike : a.Alike b)

include alike

theorem isClient_eq : a.isClient = b.isClient := by
  cases alike <;> rfl

theorem isSome_node_eq : a.node.isSome = b.node.isSome := by
  cases alike <;> rfl

end Receiver.Alike

namespace Tree.Twins

variable {policy : Policy} {t u : Tree} {n k : Nat} (twins : t.Twins policy u n k)

include twins

theorem calls :
    Option.Rel (fun c d => c.method = d.method ∧ c.receiver.Alike d.receiver)
      (t.call policy n) (u.call policy k) := by
  have method := twins.method
  rw [Tree.call, Tree.call, if_pos twins.call.1, if_pos twins.call.2]
  cases left : t.field n "method" <;> cases right : u.field k "method" <;>
    rw [left, right] at method
  · exact .none
  · cases method
  · cases method
  · exact .some ⟨Option.some.inj method, twins.receiver⟩

end Tree.Twins

end PromptAudit
