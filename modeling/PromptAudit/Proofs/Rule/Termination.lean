import Mathlib.Data.List.Find
import PromptAudit.Proofs.Audit.Look
import PromptAudit.Proofs.Call.Keyword
import PromptAudit.Proofs.Call.Receiver
import PromptAudit.Proofs.Tree.Sketch

namespace PromptAudit

open Audit Rule

namespace Tree

/-- Where a call's bounds are looked for: its arguments, the hashes among them, and the hash under
the first `parameters:` that counts. -/
inductive Inspected (t : Tree) (counts : Nat → Bool) (arguments : Nat) : Nat → Prop
  | arguments : Inspected t counts arguments arguments
  | hash {hash : Nat} (inside : hash ∈ t.childrenOf arguments) (type : t.type hash = "hash") :
      Inspected t counts arguments hash
  | parameters {pair hash : Nat} (first : t.firstPair counts arguments parametersKey = some pair)
      (bound : t.pairValue pair = some hash) (type : t.type hash = "hash") :
      Inspected t counts arguments hash

/-- What speaks for a call: it is bounded, a splat may bound it, or its parameters are not written
out. -/
inductive Excused (t : Tree) (arguments : Nat) : Prop
  | bounded {container pair : Nat} {key : Text}
      (inspected : t.Inspected (fun _ => true) arguments container)
      (child : pair ∈ t.childrenOf container) (keyed : t.pairKey pair = some key)
      (bounds : key ∈ terminationKeys)
  | splat {container splat : Nat} (inspected : t.Inspected (fun _ => true) arguments container)
      (child : splat ∈ t.childrenOf container) (expands : t.isSplat splat = true)
  | unseen {pair : Nat} (first : t.firstPair (fun _ => true) arguments parametersKey = some pair)
      (other : ∀ value, t.pairValue pair = some value → t.type value ≠ "hash")

/-- What the rule accepts as an excuse. Pairs without a value are passed over, and a hash is not
searched for splats when it stands in another hash. -/
inductive Spared (t : Tree) (arguments : Nat) : Prop
  | bounded {container pair : Nat} {key : Text}
      (inspected : t.Inspected t.hasValue arguments container)
      (child : pair ∈ t.childrenOf container) (keyed : t.pairKey pair = some key)
      (bounds : key ∈ terminationKeys) (valued : t.hasValue pair = true)
  | splat {splat : Nat} (child : splat ∈ t.childrenOf arguments) (expands : t.isSplat splat = true)
  | hashSplat {hash splat : Nat} (list : t.type arguments ≠ "hash")
      (inside : hash ∈ t.childrenOf arguments) (type : t.type hash = "hash")
      (child : splat ∈ t.childrenOf hash) (expands : t.isSplat splat = true)
  | parametersSplat {pair hash splat : Nat}
      (first : t.firstPair t.hasValue arguments parametersKey = some pair)
      (bound : t.pairValue pair = some hash) (type : t.type hash = "hash")
      (child : splat ∈ t.childrenOf hash) (expands : t.isSplat splat = true)
  | unseen {pair value : Nat}
      (first : t.firstPair t.hasValue arguments parametersKey = some pair)
      (bound : t.pairValue pair = some value) (other : t.type value ≠ "hash")

/-- Some argument names a keyword and gives it a value. -/
def GivesKeyword (t : Tree) (arguments : Nat) : Prop :=
  ∃ pair ∈ t.keywordPairs arguments, ∃ key value,
    t.pairKey pair = some key ∧ t.pairValue pair = some value

/-- The arguments are a plain list, and the pairs that the rule asks for have values. -/
structure SpellsOut (t : Tree) (arguments : Nat) : Prop where
  list : t.type arguments ≠ "hash"
  valued {container pair : Nat} {key : Text}
    (inspected : t.Inspected (fun _ => true) arguments container)
    (child : pair ∈ t.childrenOf container) (keyed : t.pairKey pair = some key)
    (asked : key ∈ parametersKey :: terminationKeys) : t.hasValue pair = true

/-- The parameters, if there are any, are written out, and neither a bound nor a splat stands where
bounds are looked for. Deeper ones do not matter. -/
structure Exposed (t : Tree) (arguments : Nat) : Prop where
  written {pair value : Nat} (first : t.firstPair t.hasValue arguments parametersKey = some pair)
    (bound : t.pairValue pair = some value) : t.type value = "hash"
  unsplatted {container splat : Nat} (inspected : t.Inspected t.hasValue arguments container)
    (child : splat ∈ t.childrenOf container) : ¬ t.isSplat splat = true
  unbounded {container pair : Nat} {key : Text}
    (inspected : t.Inspected t.hasValue arguments container)
    (child : pair ∈ t.childrenOf container) (keyed : t.pairKey pair = some key) :
    key ∉ terminationKeys

variable {t : Tree} {n arguments : Nat}

theorem inspected_of_mem_keywordPairs (counts : Nat → Bool) {pair : Nat}
    (listed : pair ∈ t.keywordPairs arguments) :
    ∃ container, t.Inspected counts arguments container ∧ pair ∈ t.childrenOf container := by
  obtain ⟨-, child | ⟨hash, inside, type, child⟩⟩ := mem_keywordPairs_iff.mp listed
  · exact ⟨arguments, .arguments, child⟩
  · exact ⟨hash, .hash inside type, child⟩

def inspectedNodes (t : Tree) (counts : Nat → Bool) (arguments : Nat) : List Nat :=
  arguments :: (t.childrenOf arguments ++
    ((t.firstPair counts arguments parametersKey).bind t.pairValue).toList).filter
      (t.type · = "hash")

theorem Inspected.mem_inspectedNodes {counts : Nat → Bool} {container : Nat}
    (inspected : t.Inspected counts arguments container) :
    container ∈ t.inspectedNodes counts arguments := by
  cases inspected with
  | arguments => exact List.mem_cons_self
  | hash inside type => simp [inspectedNodes, inside, type]
  | parameters first bound type => simp [inspectedNodes, first, bound, type]

/-- The pairs of an inspected node are pairs of the arguments, or pairs of the parameters. -/
theorem Inspected.pair_cases {counts : Nat → Bool} {container pair : Nat} {key : Text}
    (inspected : t.Inspected counts arguments container)
    (child : pair ∈ t.childrenOf container) (keyed : t.pairKey pair = some key) :
    pair ∈ t.keywordPairs arguments ∨
      ∃ first, t.firstPair counts arguments parametersKey = some first ∧
        t.pairValue first = some container ∧ t.type container = "hash" := by
  have isPair := kind_of_pairKey keyed
  cases inspected with
  | arguments => exact .inl (mem_keywordPairs_iff.mpr ⟨isPair, .inl child⟩)
  | hash inside type =>
    exact .inl (mem_keywordPairs_iff.mpr ⟨isPair, .inr ⟨container, inside, type, child⟩⟩)
  | parameters first bound type => exact .inr ⟨_, first, bound, type⟩

theorem get?_parameters_iff {value : Nat} :
    (t.argumentKeywords arguments).get? parametersKey = some value ↔
      ∃ pair, t.firstPair t.hasValue arguments parametersKey = some pair ∧
        t.pairValue pair = some value := by
  rw [get?_argumentKeywords, Option.bind_eq_some_iff]

theorem argumentKeywords_ne_nil_iff :
    t.argumentKeywords arguments ≠ [] ↔ t.GivesKeyword arguments := by
  rw [argumentKeywords_eq, Ne, Keywords.ofPairs_eq_nil_iff]
  constructor
  · intro some
    obtain ⟨entry, listed⟩ := List.exists_mem_of_ne_nil _ some
    obtain ⟨pair, inside, reads⟩ := List.mem_filterMap.mp listed
    obtain ⟨keyed, bound⟩ := entryOf_eq_some_iff.mp reads
    exact ⟨pair, inside, _, _, keyed, bound⟩
  · intro gives
    obtain ⟨pair, listed, key, value, keyed, bound⟩ := gives
    have entry := List.mem_filterMap.mpr ⟨pair, listed, entryOf_eq_some_iff.mpr ⟨keyed, bound⟩⟩
    exact List.ne_nil_of_mem entry

/-- What the rule asks of some arguments: the first `parameters:` with a value is a hash, no splat
adds to the arguments or to that hash, and neither has a bound. -/
structure Unanswered (t : Tree) (arguments : Nat) : Prop where
  written {value : Nat} (found : (t.argumentKeywords arguments).get? parametersKey = some value) :
    t.type value = "hash"
  unsplatted : t.hasSplat arguments = false
  closed {value : Nat} (found : (t.argumentKeywords arguments).get? parametersKey = some value) :
    t.hasSplat value = false
  unbounded {key : Text} (bounds : key ∈ terminationKeys) :
    (t.argumentKeywords arguments).get? key = none
  unboundedHash {key : Text} {hash : Nat} (bounds : key ∈ terminationKeys)
    (found : (t.argumentKeywords arguments).get? parametersKey = some hash)
    (type : t.type hash = "hash") : (t.hashKeywords hash).get? key = none

theorem unanswered_of_not_spared (unspared : ¬ t.Spared arguments) : t.Unanswered arguments := by
  have written {value : Nat}
      (found : (t.argumentKeywords arguments).get? parametersKey = some value) :
      t.type value = "hash" := by
    obtain ⟨pair, first, bound⟩ := get?_parameters_iff.mp found
    exact Decidable.byContradiction fun other => unspared (.unseen first bound other)
  refine ⟨written, ?_, ?_, ?_, ?_⟩
  · refine eq_false_of_ne_true fun splatted => ?_
    obtain ⟨splat, child, expands⟩ | ⟨list, hash, inside, type, splat, child, expands⟩ :=
      hasSplat_iff.mp splatted
    · exact unspared (.splat child expands)
    · exact unspared (.hashSplat list inside type child expands)
  · intro value found
    obtain ⟨pair, first, bound⟩ := get?_parameters_iff.mp found
    have type := written found
    refine eq_false_of_ne_true fun splatted => ?_
    obtain ⟨splat, child, expands⟩ | ⟨list, -⟩ := hasSplat_iff.mp splatted
    · exact unspared (.parametersSplat first bound type child expands)
    · exact list type
  · intro key bounds
    rw [argumentKeywords_eq, get?_ofPairs_eq_none_iff]
    intro pair listed keyed
    obtain ⟨container, inspected, child⟩ := inspected_of_mem_keywordPairs t.hasValue listed
    refine eq_false_of_ne_true fun valued => ?_
    exact unspared (.bounded inspected child keyed bounds valued)
  · intro key hash bounds found type
    obtain ⟨pair, first, bound⟩ := get?_parameters_iff.mp found
    rw [hashKeywords, get?_ofPairs_eq_none_iff]
    intro inner child keyed
    refine eq_false_of_ne_true fun valued => ?_
    exact unspared (.bounded (.parameters first bound type) child keyed bounds valued)

theorem Unanswered.not_spared (unanswered : t.Unanswered arguments) : ¬ t.Spared arguments := by
  intro spared
  cases spared with
  | @bounded container pair key inspected child keyed bounds valued =>
    obtain listed | ⟨first, found, bound, type⟩ := inspected.pair_cases child keyed
    · have missing := unanswered.unbounded bounds
      rw [argumentKeywords_eq, get?_ofPairs_eq_none_iff] at missing
      simp [missing pair listed keyed] at valued
    · have missing :=
        unanswered.unboundedHash bounds (get?_parameters_iff.mpr ⟨first, found, bound⟩) type
      rw [hashKeywords, get?_ofPairs_eq_none_iff] at missing
      simp [missing pair child keyed] at valued
  | splat child expands =>
    have splatted := hasSplat_iff.mpr (.inl ⟨_, child, expands⟩)
    simp [unanswered.unsplatted] at splatted
  | hashSplat list inside type child expands =>
    have splatted := hasSplat_iff.mpr (.inr ⟨list, _, inside, type, _, child, expands⟩)
    simp [unanswered.unsplatted] at splatted
  | parametersSplat first bound type child expands =>
    have splatted := hasSplat_iff.mpr (.inl ⟨_, child, expands⟩)
    simp [unanswered.closed (get?_parameters_iff.mpr ⟨_, first, bound⟩)] at splatted
  | unseen first bound other =>
    exact other (unanswered.written (get?_parameters_iff.mpr ⟨_, first, bound⟩))

theorem isUnbounded_iff_unanswered {c : Call} (keywords : c.keywords = t.argumentKeywords arguments)
    (splatted : c.splatted = t.hasSplat arguments) :
    isUnbounded t c = true ↔ t.argumentKeywords arguments ≠ [] ∧ t.Unanswered arguments := by
  simp only [isUnbounded, keywordsComplete, keywords, splatted, Bool.and_eq_true,
    Bool.not_eq_true', List.isEmpty_eq_false_iff, Option.all_eq_true, decide_eq_true_eq,
    Option.bind_some, Option.any_eq_false, List.all_eq_true, Option.isNone_iff_eq_none,
    keywordValue_eq_none_iff]
  constructor
  · intro h
    obtain ⟨⟨⟨gives, written⟩, unsplatted, closed⟩, unbounded⟩ := h
    exact ⟨gives, written _, unsplatted, closed _, fun bounds => (unbounded _ bounds).1,
      fun bounds => (unbounded _ bounds).2 _⟩
  · intro h
    obtain ⟨gives, unanswered⟩ := h
    exact ⟨⟨⟨gives, fun _ => unanswered.written⟩, unanswered.unsplatted,
      fun _ => unanswered.closed⟩,
      fun _ bounds => ⟨unanswered.unbounded bounds, fun _ => unanswered.unboundedHash bounds⟩⟩

/-- The rule finds a call unbounded when a keyword is given and nothing spares it. -/
theorem isUnbounded_iff {policy : Policy} {c : Call} (h : t.call policy n = some c)
    (passed : t.field n "arguments" = some arguments) :
    isUnbounded t c = true ↔ t.GivesKeyword arguments ∧ ¬ t.Spared arguments := by
  obtain ⟨method, -, -, rfl⟩ := call_eq_some h
  simp only [passed, Option.map_some, Option.getD_some, Option.any_some]
  rw [isUnbounded_iff_unanswered rfl rfl, argumentKeywords_ne_nil_iff]
  exact and_congr_right fun _ => ⟨Unanswered.not_spared, unanswered_of_not_spared⟩

theorem Exposed.not_spared (exposed : t.Exposed arguments) : ¬ t.Spared arguments := by
  intro spared
  cases spared with
  | bounded inspected child keyed bounds valued =>
    exact exposed.unbounded inspected child keyed bounds
  | splat child expands => exact exposed.unsplatted .arguments child expands
  | hashSplat list inside type child expands =>
    exact exposed.unsplatted (.hash inside type) child expands
  | parametersSplat first bound type child expands =>
    exact exposed.unsplatted (.parameters first bound type) child expands
  | unseen first bound other => exact other (exposed.written first bound)

theorem SpellsOut.firstPair_eq (spells : t.SpellsOut arguments) :
    t.firstPair (fun _ => true) arguments parametersKey =
      t.firstPair t.hasValue arguments parametersKey := by
  refine List.find?_congr fun pair listed => ?_
  by_cases keyed : t.pairKey pair = some parametersKey
  · obtain ⟨container, inspected, child⟩ := inspected_of_mem_keywordPairs (fun _ => true) listed
    simp [spells.valued inspected child keyed (by simp)]
  · simp [keyed]

theorem Excused.spared (excused : t.Excused arguments) (spells : t.SpellsOut arguments) :
    t.Spared arguments := by
  cases excused with
  | bounded inspected child keyed bounds =>
    have valued := spells.valued inspected child keyed (List.mem_cons_of_mem _ bounds)
    cases inspected with
    | arguments => exact .bounded .arguments child keyed bounds valued
    | hash inside type => exact .bounded (.hash inside type) child keyed bounds valued
    | parameters first bound type =>
      rw [spells.firstPair_eq] at first
      exact .bounded (.parameters first bound type) child keyed bounds valued
  | splat inspected child expands =>
    cases inspected with
    | arguments => exact .splat child expands
    | hash inside type => exact .hashSplat spells.list inside type child expands
    | parameters first bound type =>
      rw [spells.firstPair_eq] at first
      exact .parametersSplat first bound type child expands
  | unseen first other =>
    rw [spells.firstPair_eq] at first
    have valued := List.find?_some first
    simp only [Bool.and_eq_true, decide_eq_true_eq] at valued
    obtain ⟨value, bound⟩ := Option.isSome_iff_exists.mp valued.2
    exact .unseen first bound (other value bound)

open Shape (plain held)
open Forest (leaf only)

/-- The call `OpenAI::Client.new.chat(model: "x")` with more arguments. -/
def chatCall (rest : String) (arguments : Forest) : Tree where
  source := Text.encode ("OpenAI::Client.new.chat(model: \"x\"" ++ rest ++ ")\n").toList
  root := plain "program" 0 (36 + rest.length)
  children :=
    only (plain "call" 0 (35 + rest.length)) <|
      .more (held "receiver" "call" 0 18)
        (.more (held "receiver" "scope_resolution" 0 14)
          (leaf (held "scope" "constant" 0 6) <| leaf (held "name" "constant" 8 14) .none) <|
          leaf (held "method" "identifier" 15 18) .none) <|
      leaf (held "method" "identifier" 19 23) <|
      only (held "arguments" "argument_list" 23 (35 + rest.length)) <|
        .more (plain "pair" 24 34)
          (leaf (held "key" "hash_key_symbol" 24 29) <|
            only (held "value" "string" 31 34) (leaf (plain "string_content" 32 33) .none))
          arguments
  broken := false

/-- With `stop: 9`. -/
def stopped : Tree :=
  chatCall ", stop: 9" <|
    only (plain "pair" 36 43) <|
      leaf (held "key" "hash_key_symbol" 36 40) <| leaf (held "value" "integer" 42 43) .none

/-- With `stop:` and `parameters:`, which have no values. -/
def shorthand : Tree :=
  chatCall ", stop:, parameters:" <|
    .more (plain "pair" 36 41) (leaf (held "key" "hash_key_symbol" 36 40) .none) <|
    only (plain "pair" 43 54) (leaf (held "key" "hash_key_symbol" 43 53) .none)

/-- With `stop: 9` in the options in the parameters. -/
def optioned : Tree :=
  chatCall ", parameters: \x7boptions: \x7bstop: 9\x7d\x7d" <|
    only (plain "pair" 36 68) <|
      leaf (held "key" "hash_key_symbol" 36 46) <|
      only (held "value" "hash" 48 68) <| only (plain "pair" 49 67) <|
        leaf (held "key" "hash_key_symbol" 49 56) <|
        only (held "value" "hash" 58 67) <| only (plain "pair" 59 66) <|
          leaf (held "key" "hash_key_symbol" 59 63) <| leaf (held "value" "integer" 65 66) .none

end Tree

namespace Rule

open PromptAudit.Tree (stopped shorthand optioned)

variable {v : Visit}

theorem terminationComplaint_of_accepted {c : Call}
    (accepted : v.tree.clientCall v.policy chatMethods v.node = some c) :
    terminationComplaint v =
      if isUnbounded v.tree c then some (terminationMessage (v.tree.describeCall c)) else none := by
  rw [terminationComplaint, accepted, Option.filter_some]
  split <;> rfl

theorem terminationComplaint_eq_none_iff {arguments : Nat}
    (passed : v.tree.field v.node "arguments" = some arguments) :
    terminationComplaint v = none ↔
      v.tree.clientCall v.policy chatMethods v.node = none ∨
      ¬ v.tree.GivesKeyword arguments ∨ v.tree.Spared arguments := by
  cases accepted : v.tree.clientCall v.policy chatMethods v.node with
  | none => simp [terminationComplaint, accepted]
  | some c =>
    have unbounded := Tree.isUnbounded_iff (Tree.clientCall_eq_some_iff.mp accepted).1 passed
    rw [terminationComplaint_of_accepted accepted]
    simp only [ite_eq_right_iff, reduceCtorEq, imp_false, unbounded, not_and_or, not_not, false_or]

/-- A call with an excuse is passed over exactly when it is no client's, gives no keyword or is
spared. A call that spells its arguments out always is. -/
theorem look_termination_of_excused (path : Option Text) (policy : Policy) (t : Tree)
    (p : Progress) {n arguments : Nat} (passed : t.field n "arguments" = some arguments)
    (excused : t.Excused arguments) :
    ∃ q, look path policy t p (n, termination) = .ok q ∧
      (q.findings = p.findings ↔
        t.clientCall policy chatMethods n = none ∨
          ¬ t.GivesKeyword arguments ∨ t.Spared arguments) ∧
      (t.SpellsOut arguments → q.findings = p.findings) := by
  have pure : termination.check = Check.pure terminationComplaint := rfl
  obtain ⟨q, looked, found⟩ := look_of_pure pure path policy t p n
  have silent : q.findings = p.findings ↔ terminationComplaint ⟨t, policy, n⟩ = none := by
    rw [found]
    simp
  have exact := silent.trans (terminationComplaint_eq_none_iff passed)
  exact ⟨q, looked, exact, fun spells => exact.mpr (.inr (.inr (excused.spared spells)))⟩

theorem stopped_not_found :
    stopped.field 1 "arguments" = some 8 ∧ stopped.Excused 8 ∧ stopped.SpellsOut 8 ∧
      ∃ q, look none .standard stopped ⟨[], [], .ofEncoding []⟩ (1, termination) = .ok q ∧
        q.findings = [] := by
  have passed : stopped.field 1 "arguments" = some 8 := by decide +kernel
  have nodes : stopped.inspectedNodes (fun _ => true) 8 = [8] := by decide +kernel
  have stop : 13 ∈ stopped.childrenOf 8 := by decide +kernel
  have keyed : stopped.pairKey 13 = some "stop".toList := by decide +kernel
  have valued : ∀ pair ∈ stopped.childrenOf 8, stopped.hasValue pair = true := by decide +kernel
  have list : stopped.type 8 ≠ "hash" := by decide +kernel
  have excused : stopped.Excused 8 := .bounded .arguments stop keyed (by decide)
  have spells : stopped.SpellsOut 8 := by
    refine ⟨list, ?_⟩
    intro container pair key inspected child _ _
    have known := inspected.mem_inspectedNodes
    rw [nodes, List.mem_singleton] at known
    exact valued pair (known ▸ child)
  obtain ⟨q, looked, -, spared⟩ :=
    look_termination_of_excused none .standard stopped ⟨[], [], .ofEncoding []⟩ passed excused
  exact ⟨passed, excused, spells, q, looked, spared spells⟩

/-- The call has two excuses and is found all the same. -/
theorem shorthand_found :
    shorthand.field 1 "arguments" = some 8 ∧ shorthand.Excused 8 ∧
      ∃ q, look none .standard shorthand ⟨[], [], .ofEncoding []⟩ (1, termination) = .ok q ∧
        q.findings = [⟨.missingTermination, terminationMessage "OpenAI::Client.chat".toList,
          shorthand.span 1, none⟩] := by
  have passed : shorthand.field 1 "arguments" = some 8 := by decide +kernel
  have stop : 13 ∈ shorthand.childrenOf 8 := by decide +kernel
  have keyed : shorthand.pairKey 13 = some "stop".toList := by decide +kernel
  have complaint : terminationComplaint ⟨shorthand, .standard, 1⟩ =
      some (terminationMessage "OpenAI::Client.chat".toList) := by decide +kernel
  have pure : termination.check = Check.pure terminationComplaint := rfl
  obtain ⟨q, looked, found⟩ :=
    look_of_pure pure none .standard shorthand ⟨[], [], .ofEncoding []⟩ 1
  refine ⟨passed, .bounded .arguments stop keyed (by decide), q, looked, ?_⟩
  rw [found, complaint]
  rfl

/-- A client's call that gives a keyword and nothing to bound it is found, and the finding names
the client. -/
theorem look_termination_of_exposed (path : Option Text) (policy : Policy) (t : Tree)
    (p : Progress) {n arguments : Nat} {c : Call}
    (accepted : t.clientCall policy chatMethods n = some c)
    (passed : t.field n "arguments" = some arguments) (gives : t.GivesKeyword arguments)
    (exposed : t.Exposed arguments) :
    ∃ q name, look path policy t p (n, termination) = .ok q ∧
      c.receiver.node = t.field n "receiver" ∧ t.Designates policy c.receiver name ∧
      q.findings = p.findings ++
        [⟨.missingTermination, terminationMessage (name ++ ".chat".toList), t.span n, path⟩] := by
  have pure : termination.check = Check.pure terminationComplaint := rfl
  obtain ⟨q, looked, found⟩ := look_of_pure pure path policy t p n
  obtain ⟨name, designates, described⟩ := Tree.describeCall_eq accepted
  obtain ⟨isCall, method, -⟩ := Tree.clientCall_eq_some_iff.mp accepted
  have chats : c.method = "chat".toList := List.mem_singleton.mp method
  have unbounded : isUnbounded t c = true :=
    (Tree.isUnbounded_iff isCall passed).mpr ⟨gives, exposed.not_spared⟩
  have complaint : terminationComplaint ⟨t, policy, n⟩ =
      some (terminationMessage (name ++ ".chat".toList)) := by
    rw [terminationComplaint_of_accepted accepted, if_pos unbounded, described, chats]
    rfl
  obtain ⟨node, receiver, resolves⟩ := Tree.resolves_of_clientCall accepted
  refine ⟨q, name, looked, resolves.node_eq.trans receiver.symm, designates, ?_⟩
  rw [found, complaint]
  rfl

theorem optioned_found :
    (∃ c, optioned.clientCall .standard chatMethods 1 = some c) ∧
      optioned.field 1 "arguments" = some 8 ∧ optioned.GivesKeyword 8 ∧ optioned.Exposed 8 ∧
      ∃ q name, look none .standard optioned ⟨[], [], .ofEncoding []⟩ (1, termination) = .ok q ∧
        q.findings = [⟨.missingTermination, terminationMessage (name ++ ".chat".toList),
          optioned.span 1, none⟩] := by
  have passed : optioned.field 1 "arguments" = some 8 := by decide +kernel
  have nodes : optioned.inspectedNodes optioned.hasValue 8 = [8, 15] := by decide +kernel
  have first : optioned.firstPair optioned.hasValue 8 parametersKey = some 13 := by
    decide +kernel
  have bound : optioned.pairValue 13 = some 15 := by decide +kernel
  have type : optioned.type 15 = "hash" := by decide +kernel
  have keyed : optioned.pairKey 13 = some parametersKey := by decide +kernel
  have listed : 13 ∈ optioned.keywordPairs 8 := by decide +kernel
  have unsplatted : ∀ container ∈ [8, 15], ∀ child ∈ optioned.childrenOf container,
      ¬ optioned.isSplat child = true := by decide +kernel
  have unbounded : ∀ container ∈ [8, 15], ∀ child ∈ optioned.childrenOf container,
      ∀ key ∈ terminationKeys, optioned.pairKey child ≠ some key := by decide +kernel
  have isClient : (optioned.clientCall .standard chatMethods 1).isSome = true := by
    decide +kernel
  have exposed : optioned.Exposed 8 := by
    constructor
    · intro pair value leads reads
      cases Option.some.inj (leads.symm.trans first)
      cases Option.some.inj (reads.symm.trans bound)
      exact type
    · intro container splat inspected child
      exact unsplatted container (nodes ▸ inspected.mem_inspectedNodes) splat child
    · intro container pair key inspected child keyed bounds
      exact unbounded container (nodes ▸ inspected.mem_inspectedNodes) pair child key bounds keyed
  have gives : optioned.GivesKeyword 8 := ⟨13, listed, _, _, keyed, bound⟩
  obtain ⟨c, accepted⟩ := Option.isSome_iff_exists.mp isClient
  obtain ⟨q, name, looked, -, -, found⟩ := look_termination_of_exposed none .standard optioned
    ⟨[], [], .ofEncoding []⟩ accepted passed gives exposed
  exact ⟨⟨c, accepted⟩, passed, gives, exposed, q, name, looked, found⟩

end Rule

end PromptAudit
