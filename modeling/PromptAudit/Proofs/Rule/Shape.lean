import PromptAudit.Proofs.Call.Shape
import PromptAudit.Proofs.Tree.Sketch
import PromptAudit.Rule.Temperature

namespace PromptAudit.Rule

variable {t u : Tree} {policy : Policy} {n k : Nat} {ps qs : List Nat} {c d : Call}
  {r : Nat → Nat → Prop}

/-- Two calls that read as copied options. -/
structure Echoes (t u : Tree) (r : Nat → Nat → Prop) (c d : Call) : Prop where
  method : c.method = d.method
  receiver : c.receiver.Alike d.receiver
  unbounded : isUnbounded t c = isUnbounded u d
  value (key : Text) (other : key ≠ parametersKey) :
    Option.Rel r (t.keywordValue c parametersKey key) (u.keywordValue d parametersKey key)

/-- No option bounds a call or expands to something that may. -/
def Unbounding (t : Tree) (ps : List Nat) : Prop :=
  ∀ p ∈ ps, t.isSplat p = false ∧
    ∀ key ∈ terminationKeys, t.pairKey p = some key → t.hasValue p = false

theorem isUnbounded_iff_of_readsAs (reads : t.ReadsAs c ps) :
    isUnbounded t c = true ↔ Unbounding t ps := by
  have missing (key : Text) (bounds : key ∈ terminationKeys) :
      (t.keywordValue c parametersKey key).isNone = true ↔
        ∀ p ∈ ps, t.pairKey p = some key → t.hasValue p = false := by
    have other : key ≠ parametersKey := by
      intro same
      rw [same] at bounds
      exact absurd bounds (by decide)
    rw [reads.value other, ← Keywords.get?_ofPairs, Option.isNone_iff_eq_none,
      Tree.get?_ofPairs_eq_none_iff]
  simp only [isUnbounded, reads.given, reads.written, reads.complete, Bool.not_false, Bool.true_and,
    Bool.and_eq_true, Bool.not_eq_true', List.any_eq_false, List.all_eq_true]
  constructor
  · intro unbounded p listed
    refine ⟨Bool.eq_false_iff.mpr (unbounded.1 p listed), fun key bounds => ?_⟩
    exact (missing key bounds).mp (unbounded.2 key bounds) p listed
  · intro unbounding
    refine ⟨fun p listed => Bool.eq_false_iff.mp (unbounding p listed).1, fun key bounds => ?_⟩
    exact (missing key bounds).mpr fun p listed => (unbounding p listed).2 key bounds

theorem value_matching (kin : t.Kindred u r) (matched : List.Forall₂ r ps qs)
    (left : t.ReadsAs c ps) (right : u.ReadsAs d qs) (key : Text) (other : key ≠ parametersKey) :
    Option.Rel r (t.keywordValue c parametersKey key) (u.keywordValue d parametersKey key) := by
  rw [left.value other, right.value other]
  exact kin.lookup_matching matched key

theorem isUnbounded_eq (kin : t.Kindred u r) (matched : List.Forall₂ r ps qs)
    (left : t.ReadsAs c ps) (right : u.ReadsAs d qs) : isUnbounded t c = isUnbounded u d := by
  have splats : ps.any t.isSplat = qs.any u.isSplat :=
    any_eq_of_matching (fun _ _ => kin.isSplat_eq) matched
  have value (key : Text) (other : key ≠ parametersKey) :
      (t.keywordValue c parametersKey key).isNone = (u.keywordValue d parametersKey key).isNone := by
    have same := isSome_eq_of_matching (value_matching kin matched left right key other)
    rw [← Option.not_isSome, ← Option.not_isSome, same]
  have bounds : (terminationKeys.all fun key => (t.keywordValue c parametersKey key).isNone) =
      terminationKeys.all fun key => (u.keywordValue d parametersKey key).isNone := by
    simp only [terminationKeys, List.all_cons, List.all_nil,
      value "stop".toList (by decide), value "max_tokens".toList (by decide)]
  rw [isUnbounded, isUnbounded, left.given, right.given, left.written, right.written, left.complete,
    right.complete, splats, bounds]

theorem calls_echo (twins : t.Twins policy u n k) (options : t.Options ps) (kin : t.Kindred u r)
    (matched : List.Forall₂ r ps qs) (passes : t.Passes n ps) (passed : u.Passes k qs) :
    Option.Rel (Echoes t u r) (t.call policy n) (u.call policy k) := by
  refine imp_matching (fun c d related => ?_) (matching_some twins.calls)
  obtain ⟨⟨method, receiver⟩, called, recalled⟩ := related
  have left : t.ReadsAs c ps := options.readsAs passes called
  have right : u.ReadsAs d qs := (kin.options matched options).readsAs passed recalled
  exact ⟨method, receiver, isUnbounded_eq kin matched left right,
    value_matching kin matched left right⟩

theorem clientCalls_echo (calls : Option.Rel (Echoes t u r) (t.call policy n) (u.call policy k))
    (methods : List Text) :
    Option.Rel (Echoes t u r) (t.clientCall policy methods n) (u.clientCall policy methods k) :=
  filter_some_matching calls fun c d echoes => by
    rw [echoes.method, echoes.receiver.isClient_eq]

theorem terminationComplaint_isSome_eq
    (calls : Option.Rel (Echoes t u r) (t.call policy n) (u.call policy k)) :
    (terminationComplaint ⟨t, policy, n⟩).isSome = (terminationComplaint ⟨u, policy, k⟩).isSome := by
  have found := filter_some_matching (clientCalls_echo calls chatMethods) fun _ _ => (·.unbounded)
  rw [terminationComplaint, terminationComplaint, Option.isSome_map, Option.isSome_map]
  exact isSome_eq_of_matching found

/-- In whatever shape a call passes its options, it is found when it is a client's and none of them
bounds it. -/
theorem terminationComplaint_isSome_iff (options : t.Options ps) (passes : t.Passes n ps) :
    (terminationComplaint ⟨t, policy, n⟩).isSome = true ↔
      (t.clientCall policy chatMethods n).isSome = true ∧ Unbounding t ps := by
  cases accepted : t.clientCall policy chatMethods n with
  | none => simp [terminationComplaint, accepted]
  | some c =>
    have called := (Tree.clientCall_eq_some_iff.mp accepted).1
    have reads : t.ReadsAs c ps := options.readsAs passes called
    rw [← isUnbounded_iff_of_readsAs reads]
    cases unbounded : isUnbounded t c <;>
      simp [terminationComplaint, accepted, Option.filter_some, unbounded]

theorem candidateCalls_echo
    (calls : Option.Rel (Echoes t u r) (t.call policy n) (u.call policy k))
    (scope : t.inPromptScope n = u.inPromptScope k) :
    Option.Rel (Echoes t u r) (candidateCall ⟨t, policy, n⟩) (candidateCall ⟨u, policy, k⟩) := by
  have clients := clientCalls_echo calls completionMethods
  unfold candidateCall
  generalize t.clientCall policy completionMethods n = o,
    u.clientCall policy completionMethods k = p at clients
  cases clients with
  | some echoes => exact .some echoes
  | none =>
    refine filter_some_matching calls fun c d echoes => ?_
    rw [echoes.method, echoes.receiver.isSome_node_eq, scope]

theorem asksPrecision_eq (kin : t.Kindred u r) (echoes : Echoes t u r c d) :
    asksPrecision ⟨t, policy, n⟩ c = asksPrecision ⟨u, policy, k⟩ d := by
  have messages := echoes.value "messages".toList (by decide)
  rw [asksPrecision, asksPrecision,
    bind_eq_of_matching messages fun _ _ => kin.messageContent_eq]

def temperatureGiven (v : Visit) : Option (Call × Nat) :=
  (candidateCall v).bind fun c =>
    (v.tree.keywordValue c parametersKey "temperature".toList).map (c, ·)

theorem temperaturesGiven_echo
    (calls : Option.Rel (Echoes t u r) (t.call policy n) (u.call policy k))
    (scope : t.inPromptScope n = u.inPromptScope k) :
    Option.Rel (fun p q => Echoes t u r p.1 q.1 ∧ r p.2 q.2)
      (temperatureGiven ⟨t, policy, n⟩) (temperatureGiven ⟨u, policy, k⟩) := by
  refine bind_matching (candidateCalls_echo calls scope) fun c d echoes => ?_
  have temperatures := echoes.value "temperature".toList (by decide)
  dsimp only
  generalize t.keywordValue c parametersKey "temperature".toList = o,
    u.keywordValue d parametersKey "temperature".toList = p at temperatures
  cases temperatures with
  | none => exact .none
  | some related => exact .some ⟨echoes, related⟩

theorem temperatureCheck_eq (kin : t.Kindred u r)
    (calls : Option.Rel (Echoes t u r) (t.call policy n) (u.call policy k))
    (scope : t.inPromptScope n = u.inPromptScope k) (m : Meter) :
    temperatureCheck ⟨t, policy, n⟩ m = temperatureCheck ⟨u, policy, k⟩ m := by
  have given := temperaturesGiven_echo calls scope
  simp only [temperatureCheck, ← temperatureGiven.eq_def]
  generalize temperatureGiven ⟨t, policy, n⟩ = o, temperatureGiven ⟨u, policy, k⟩ = p at given
  cases given with
  | none => rfl
  | @some left right related =>
    obtain ⟨echoes, literal⟩ := related
    have precision : asksPrecision ⟨t, policy, n⟩ left.1 = asksPrecision ⟨u, policy, k⟩ right.1 :=
      asksPrecision_eq kin echoes
    simp only [kin.worth_eq literal, precision]

/-- Calls on receivers of one sort that pass copies of the same options, one by one, in braces or
under `parameters:`, are both found without a bound or neither is, as their options say; and their
temperatures are judged alike, in the same words. -/
theorem checks_eq_of_passes (twins : t.Twins policy u n k) (options : t.Options ps)
    (copies : t.Copies u ps qs) (passes : t.Passes n ps) (passed : u.Passes k qs) (m : Meter) :
    (∃ a b, termination.check ⟨t, policy, n⟩ m = .ok a ∧ termination.check ⟨u, policy, k⟩ m = .ok b ∧
      a.complaint.isSome = b.complaint.isSome ∧
      (a.complaint.isSome = true ↔
        (t.clientCall policy chatMethods n).isSome = true ∧ Unbounding t ps)) ∧
    temperature.check ⟨t, policy, n⟩ m = temperature.check ⟨u, policy, k⟩ m := by
  obtain ⟨r, copying, matched⟩ := copies
  have kinds : List.Forall₂ (fun i j => r i j ∧ t.kind i = u.kind j) ps qs := by
    refine (matching_mem matched).imp fun p q both => ⟨both.1, copying.kind_eq both.1 ?_⟩
    intro isString
    rcases options.shapes both.2.1 with type | type <;> rw [type] at isString <;>
      exact absurd isString (by decide)
  have calls := calls_echo twins options copying.kindred kinds passes passed
  exact ⟨⟨_, _, rfl, rfl, terminationComplaint_isSome_eq calls,
    terminationComplaint_isSome_iff options passes⟩,
    temperatureCheck_eq copying.kindred calls twins.scope m⟩

open Tree.Shape (plain held)
open Tree.Forest (leaf only)

def hotOptions : String := "temperature: 0.9, messages: [\x7bcontent: \"exact\"\x7d]"

def hotRow (o : Nat) : Tree.Forest :=
  .more (plain "pair" o (o + 16))
    (leaf (held "key" "hash_key_symbol" o (o + 11)) <|
      leaf (held "value" "float" (o + 13) (o + 16)) .none) <|
  only (plain "pair" (o + 18) (o + 48)) <|
    leaf (held "key" "hash_key_symbol" (o + 18) (o + 26)) <|
    only (held "value" "array" (o + 28) (o + 48)) <|
    only (plain "hash" (o + 29) (o + 47)) <|
    only (plain "pair" (o + 30) (o + 46)) <|
      leaf (held "key" "hash_key_symbol" (o + 30) (o + 37)) <|
      only (held "value" "string" (o + 39) (o + 46)) <|
        leaf (plain "string_content" (o + 40) (o + 45)) .none

def hotBare : Tree := Tree.chatting hotOptions (hotRow 24)

def hotBraced : Tree :=
  Tree.chatting ("\x7b" ++ hotOptions ++ "\x7d") <| only (plain "hash" 24 74) (hotRow 25)

def hotWrapped : Tree :=
  Tree.chatting ("parameters: \x7b" ++ hotOptions ++ "\x7d") <|
    only (plain "pair" 24 86) <|
      leaf (held "key" "hash_key_symbol" 24 34) <| only (held "value" "hash" 36 86) (hotRow 37)

theorem hotBare_copies : hotBare.Copies hotBraced [9, 12] [10, 13] ∧
    hotBare.Copies hotWrapped [9, 12] [12, 15] := by
  have braced : hotBare.Copying hotBraced fun i j => i ∈ List.range' 9 11 ∧ j = i + 1 :=
    Tree.copying_of_shift (by decide +kernel) (by decide +kernel)
  have wrapped : hotBare.Copying hotWrapped fun i j => i ∈ List.range' 9 11 ∧ j = i + 3 :=
    Tree.copying_of_shift (by decide +kernel) (by decide +kernel)
  exact ⟨⟨_, braced, by simp⟩, ⟨_, wrapped, by simp⟩⟩

theorem hotBare_twins : hotBare.Twins .standard hotBraced 1 1 ∧
    hotBare.Twins .standard hotWrapped 1 1 := by
  have bare : hotBare.receiver .standard (hotBare.field 1 "receiver") = .constructed 2 := by
    decide +kernel
  have braced : hotBraced.receiver .standard (hotBraced.field 1 "receiver") = .constructed 2 := by
    decide +kernel
  have wrapped : hotWrapped.receiver .standard (hotWrapped.field 1 "receiver") = .constructed 2 := by
    decide +kernel
  constructor
  · refine ⟨by decide +kernel, by decide +kernel, ?_, by decide +kernel⟩
    rw [bare, braced]
    exact .constructed 2 2
  · refine ⟨by decide +kernel, by decide +kernel, ?_, by decide +kernel⟩
    rw [bare, wrapped]
    exact .constructed 2 2

theorem hotBare_options : hotBare.Options [9, 12] where
  shapes {p} := by
    revert p
    decide +kernel
  plain {p} := by
    revert p
    decide +kernel
  gives := ⟨9, by decide, ("temperature".toList, 11), by decide +kernel⟩

theorem hot_passes : hotBare.Passes 1 [9, 12] ∧ hotBraced.Passes 1 [10, 13] ∧
    hotWrapped.Passes 1 [12, 15] := by
  have bare : hotBare.field 1 "arguments" = some 8 := by decide +kernel
  have braced : hotBraced.field 1 "arguments" = some 8 := by decide +kernel
  have hash : hotBraced.childrenOf 8 = [9] := by decide +kernel
  have wrapped : hotWrapped.field 1 "arguments" = some 8 := by decide +kernel
  have pair : hotWrapped.childrenOf 8 = [9] := by decide +kernel
  have bound : hotWrapped.pairValue 9 = some 11 := by decide +kernel
  refine ⟨.bare bare ?_, .braced braced ?_ hash ?_ ?_, .wrapped wrapped pair ?_ bound ?_ ?_⟩ <;>
    decide +kernel

/-- Both rules find the first call, and so they find the others. -/
theorem hot_checks_eq :
    (hotBare.Twins .standard hotBraced 1 1 ∧ hotBare.Twins .standard hotWrapped 1 1) ∧
    hotBare.Options [9, 12] ∧
    (hotBare.Copies hotBraced [9, 12] [10, 13] ∧ hotBare.Copies hotWrapped [9, 12] [12, 15]) ∧
    (hotBare.Passes 1 [9, 12] ∧ hotBraced.Passes 1 [10, 13] ∧ hotWrapped.Passes 1 [12, 15]) ∧
    (terminationComplaint ⟨hotBare, .standard, 1⟩).isSome = true ∧
    ((temperature.check ⟨hotBare, .standard, 1⟩ (.ofEncoding [])).toOption.bind
      (·.complaint)).isSome = true ∧
    ∀ other ∈ [hotBraced, hotWrapped],
      (∃ a b, termination.check ⟨hotBare, .standard, 1⟩ (.ofEncoding []) = .ok a ∧
        termination.check ⟨other, .standard, 1⟩ (.ofEncoding []) = .ok b ∧
        a.complaint.isSome = b.complaint.isSome ∧
        (a.complaint.isSome = true ↔
          (hotBare.clientCall .standard chatMethods 1).isSome = true ∧
            Unbounding hotBare [9, 12])) ∧
      temperature.check ⟨hotBare, .standard, 1⟩ (.ofEncoding []) =
        temperature.check ⟨other, .standard, 1⟩ (.ofEncoding []) := by
  obtain ⟨alikeBraced, alikeWrapped⟩ := hotBare_twins
  obtain ⟨copyBraced, copyWrapped⟩ := hotBare_copies
  obtain ⟨bare, braced, wrapped⟩ := hot_passes
  refine ⟨⟨alikeBraced, alikeWrapped⟩, hotBare_options, ⟨copyBraced, copyWrapped⟩,
    ⟨bare, braced, wrapped⟩, by decide +kernel, by decide +kernel, fun other listed => ?_⟩
  simp only [List.mem_cons, List.not_mem_nil, or_false] at listed
  rcases listed with rfl | rfl
  · exact checks_eq_of_passes alikeBraced hotBare_options copyBraced bare braced _
  · exact checks_eq_of_passes alikeWrapped hotBare_options copyWrapped bare wrapped _

end PromptAudit.Rule
