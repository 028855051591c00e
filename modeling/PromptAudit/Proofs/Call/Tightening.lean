import PromptAudit.Proofs.Call.Receiver

namespace PromptAudit

namespace Number.Double

theorem le_iff {a b : Double} :
    a.le b = true ↔ a.isNaN = false ∧ b.isNaN = false ∧ a.key ≤ b.key := by
  simp [le, and_assoc]

theorem le_trans {a b c : Double} (h : a.le b = true) (k : b.le c = true) : a.le c = true := by
  rw [le_iff] at *
  exact ⟨h.1, k.2.1, Int.le_trans h.2.2 k.2.2⟩

end Number.Double

/-- A policy that is as strict as another one or stricter: it knows all clients, hints and words of
the other one, and allows no more. Limits that can be compared are numbers. -/
structure Policy.Tightens (strict loose : Policy) : Prop where
  tag : strict.systemTag = loose.systemTag
  types : loose.clientTypes ⊆ strict.clientTypes
  hints : loose.clientHints ⊆ strict.clientHints
  words : loose.precisionWords ⊆ strict.precisionWords
  tokens : strict.maxTokens ≤ loose.maxTokens
  limit : strict.temperatureLimit.le loose.temperatureLimit = true

/-- Two readings of one call. The receiver may be a client for another reason in the second one, or
only there. -/
structure Call.Firms (c d : Call) : Prop where
  method : d.method = c.method
  keywords : d.keywords = c.keywords
  splatted : d.splatted = c.splatted
  receiver : d.receiver.node = c.receiver.node
  client (known : c.receiver.isClient = true) : d.receiver.isClient = true

namespace Tree

variable {t : Tree} {strict loose : Policy} {i : Nat} {c d : Call}

section Tightens

variable (tightens : strict.Tightens loose)

include tightens

theorem constructsClient_of_tightens (constructs : t.constructsClient loose i = true) :
    t.constructsClient strict i = true := by
  obtain ⟨isCall, method, target, path, receiver, reads, client⟩ := constructsClient_iff.mp constructs
  have known : path ∈ strict.clientPaths := List.map_subset _ tightens.types client
  exact constructsClient_iff.mpr ⟨isCall, method, target, path, receiver, reads, known⟩

theorem assignsClient_of_tightens (assigns : t.assignsClient loose i = true) :
    t.assignsClient strict i = true := by
  simp only [assignsClient, Bool.and_eq_true, Option.any_eq_true] at assigns ⊢
  obtain ⟨isAssignment, right, held, constructs⟩ := assigns
  exact ⟨isAssignment, right, held, constructsClient_of_tightens tightens constructs⟩

/-- A stricter policy may trace a variable to another assignment, but it traces it. -/
theorem clientAssignment_of_tightens (traced : t.clientAssignment strict i = none) :
    t.clientAssignment loose i = none := by
  simp only [clientAssignment, List.find?_eq_none] at traced ⊢
  exact fun candidate inside assigns =>
    traced candidate inside (assignsClient_of_tightens tightens assigns)

theorem hasTellingName_of_tightens (telling : t.hasTellingName loose i = true) :
    t.hasTellingName strict i = true := by
  simp only [hasTellingName, List.any_eq_true] at telling ⊢
  obtain ⟨hint, listed, occurs⟩ := telling
  exact ⟨hint, tightens.hints listed, occurs⟩

/-- A receiver stays a client under a stricter policy. -/
theorem isClient_of_tightens (client : (t.resolve loose i).isClient = true) :
    (t.resolve strict i).isClient = true := by
  have before : t.Resolves loose i (t.resolve loose i) := t.resolves i
  have after : t.Resolves strict i (t.resolve strict i) := t.resolves i
  generalize t.resolve loose i = first at client before
  generalize t.resolve strict i = second at after ⊢
  cases after with
  | constructed | traced | named => rfl
  | unknown other untraced unnamed =>
    cases before with
    | constructed constructs =>
      have found := constructsClient_of_tightens tightens constructs
      rw [other] at found
      cases found
    | traced _ isVariable first =>
      have missing := clientAssignment_of_tightens tightens (untraced isVariable)
      rw [missing] at first
      cases first
    | named _ _ identifier isLocal telling =>
      have known := hasTellingName_of_tightens tightens telling
      exact absurd ⟨identifier, isLocal, known⟩ unnamed
    | unknown => cases client

theorem receiver_of_tightens (node : Option Nat) :
    (t.receiver strict node).node = (t.receiver loose node).node ∧
      ((t.receiver loose node).isClient = true → (t.receiver strict node).isClient = true) := by
  cases node with
  | none => exact ⟨rfl, id⟩
  | some i =>
    refine ⟨?_, isClient_of_tightens tightens⟩
    exact (t.resolves i).node_eq.trans (t.resolves i).node_eq.symm

theorem call_of_tightens (called : t.call loose i = some c) :
    ∃ d, t.call strict i = some d ∧ c.Firms d := by
  obtain ⟨method, isCall, named, rfl⟩ := call_eq_some called
  obtain ⟨node, client⟩ := receiver_of_tightens (t := t) tightens (t.field i "receiver")
  have readable : ∃ d, t.call strict i = some d := by
    rw [call, if_pos isCall, named]
    exact ⟨_, rfl⟩
  obtain ⟨d, recalled⟩ := readable
  obtain ⟨other, -, renamed, rfl⟩ := call_eq_some recalled
  cases named.symm.trans renamed
  exact ⟨_, recalled, ⟨rfl, rfl, rfl, node, client⟩⟩

theorem clientCall_of_tightens {methods : List Text}
    (accepted : t.clientCall loose methods i = some c) :
    ∃ d, t.clientCall strict methods i = some d ∧ c.Firms d := by
  obtain ⟨called, wanted, client⟩ := clientCall_eq_some_iff.mp accepted
  obtain ⟨d, recalled, firms⟩ := call_of_tightens tightens called
  refine ⟨d, clientCall_eq_some_iff.mpr ⟨recalled, ?_, firms.client client⟩, firms⟩
  rw [firms.method]
  exact wanted

end Tightens

theorem keywordValue_of_firms (firms : c.Firms d) (nested : Option Text) (key : Text) :
    t.keywordValue d nested key = t.keywordValue c nested key := by
  have inner (name : Text) : t.nestedKeywords d name = t.nestedKeywords c name := by
    rw [nestedKeywords, nestedKeywords, firms.keywords]
  rw [keywordValue, keywordValue, firms.keywords, funext inner]

theorem keywordsComplete_of_firms (firms : c.Firms d) (nested : Option Text) :
    t.keywordsComplete d nested = t.keywordsComplete c nested := by
  rw [keywordsComplete, keywordsComplete, firms.keywords, firms.splatted]

end Tree

end PromptAudit
