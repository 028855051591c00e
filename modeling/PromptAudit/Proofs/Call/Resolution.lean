import PromptAudit.Proofs.Call.Receiver
import PromptAudit.Proofs.Call.Scope
import PromptAudit.Proofs.List.Sorted
import PromptAudit.Proofs.Text.Occurrence

namespace PromptAudit.Tree

/-- An assignment, plain or with an operator, that constructs a client on its right. -/
structure AssignsNew (t : Tree) (policy : Policy) (i : Nat) : Prop where
  assigns : t.isAssignment i = true
  constructs : ∃ right, t.field i "right" = some right ∧ t.constructsClient policy right = true

/-- An assignment, plain or with an operator, to a name; it starts before an offset. -/
structure AssignsName (t : Tree) (name : Text) (offset i : Nat) : Prop where
  assigns : t.isAssignment i = true
  target : ∃ left, t.field i "left" = some left ∧ t.type left = "identifier" ∧ t.text left = name
  earlier : t.start i < offset

/-- A list of parameters with a name somewhere in it. -/
structure MentionsName (t : Tree) (name : Text) (i : Nat) : Prop where
  list : t.isParameterList i = true
  mention : ∃ d, t.Below d i ∧ t.type d = "identifier" ∧ t.text d = name

/-- The first assignment of a new client in a scope, for a variable. -/
structure Traces (t : Tree) (policy : Policy) (r s origin : Nat) : Prop where
  isVariable : t.isVariable r = true
  inside : t.InRegion s origin
  assigns : t.AssignsNew policy origin
  first : ∀ i, t.InRegion s i → t.AssignsNew policy i → origin ≤ i

/-- A bare name that is bound in a scope and sounds like a client. -/
structure Suggests (t : Tree) (policy : Policy) (r s : Nat) : Prop where
  identifier : t.type r = "identifier"
  bound : ∃ i, t.InRegion s i ∧
    (t.AssignsName (t.text r) (t.start r) i ∨ t.MentionsName (t.text r) i)
  telling : ∃ hint ∈ policy.clientHints, hint <:+: Text.lower (t.text r)

/-- What a receiver in a scope stands for. A client that is constructed in place comes first, then
one that is constructed in the scope, then one that is only named like a client. -/
inductive Means (t : Tree) (policy : Policy) (r s : Nat) : Receiver → Prop
  | constructed (constructs : t.constructsClient policy r = true) :
      Means t policy r s (.constructed r)
  | traced {origin : Nat} (other : t.constructsClient policy r = false)
      (traces : t.Traces policy r s origin) : Means t policy r s (.traced r origin)
  | named (other : t.constructsClient policy r = false)
      (untraced : ∀ i, t.InRegion s i → ¬ t.AssignsNew policy i)
      (suggests : t.Suggests policy r s) : Means t policy r s (.named r)
  | unknown (other : t.constructsClient policy r = false)
      (untraced : t.isVariable r = true → ∀ i, t.InRegion s i → ¬ t.AssignsNew policy i)
      (unnamed : ¬ t.Suggests policy r s) : Means t policy r s (.unknown (some r))

variable {t : Tree} {policy : Policy}

theorem assignsClient_iff {i : Nat} : t.assignsClient policy i = true ↔ t.AssignsNew policy i := by
  simp only [assignsClient, Bool.and_eq_true, Option.any_eq_true]
  exact ⟨fun h => ⟨h.1, h.2⟩, fun h => ⟨h.assigns, h.constructs⟩⟩

theorem isVariable_of_identifier {i : Nat} (h : t.type i = "identifier") : t.isVariable i = true := by
  simp [isVariable, h]

theorem clientAssignment_eq_some_iff {r origin : Nat} (isVariable : t.isVariable r = true) :
    t.clientAssignment policy r = some origin ↔ t.Traces policy r (t.enclosingScope r) origin := by
  simp only [clientAssignment, find?_eq_some_iff_of_pairwise (scopeNodes_pairwise _),
    mem_scopeNodes_iff, assignsClient_iff]
  constructor
  · intro h
    exact ⟨isVariable, h.1, h.2.1, h.2.2⟩
  · intro traces
    exact ⟨traces.inside, traces.assigns, traces.first⟩

theorem clientAssignment_eq_none_iff {r : Nat} :
    t.clientAssignment policy r = none ↔
      ∀ i, t.InRegion (t.enclosingScope r) i → ¬ t.AssignsNew policy i := by
  simp only [clientAssignment, List.find?_eq_none, mem_scopeNodes_iff, assignsClient_iff]

theorem isNamed_iff {name : Text} {i : Nat} :
    t.isNamed name i = true ↔ t.type i = "identifier" ∧ t.text i = name := by
  simp [isNamed]

theorem not_assignment_of_isParameterList {i : Nat} (h : t.isParameterList i = true) :
    t.isAssignment i = false ∧ t.type i ≠ "identifier" := by
  simp only [isParameterList, List.contains_iff_mem, List.mem_cons, List.not_mem_nil, or_false] at h
  rcases h with type | type | type <;> simp [isAssignment, type]

theorem binds_iff {name : Text} {offset i : Nat} :
    t.binds name offset i = true ↔ t.AssignsName name offset i ∨ t.MentionsName name i := by
  constructor
  · intro h
    unfold binds at h
    split_ifs at h with assigns
    · simp only [Bool.and_eq_true, Option.any_eq_true, isNamed_iff, decide_eq_true_eq] at h
      exact .inl ⟨assigns, h.1, h.2⟩
    · simp only [Bool.and_eq_true, List.any_cons, Bool.or_eq_true, List.any_eq_true, isNamed_iff,
        mem_descendants_iff] at h
      obtain ⟨list, ⟨identifier, -⟩ | mention⟩ := h
      · exact absurd identifier (not_assignment_of_isParameterList list).2
      · exact .inr ⟨list, mention⟩
  · intro h
    rcases h with ⟨assigns, target, earlier⟩ | ⟨list, mention⟩
    · rw [binds, if_pos assigns]
      simp only [Bool.and_eq_true, Option.any_eq_true, isNamed_iff, decide_eq_true_eq]
      exact ⟨target, earlier⟩
    · have other : ¬ t.isAssignment i = true := by simp [not_assignment_of_isParameterList list]
      rw [binds, if_neg other]
      simp only [Bool.and_eq_true, List.any_cons, Bool.or_eq_true, List.any_eq_true, isNamed_iff,
        mem_descendants_iff]
      exact ⟨list, .inr mention⟩

theorem isLocal_iff {r : Nat} :
    t.isLocal r = true ↔ ∃ i, t.InRegion (t.enclosingScope r) i ∧
      (t.AssignsName (t.text r) (t.start r) i ∨ t.MentionsName (t.text r) i) := by
  simp only [isLocal, List.any_eq_true, mem_scopeNodes_iff, binds_iff]

theorem hasTellingName_iff {r : Nat} :
    t.hasTellingName policy r = true ↔
      ∃ hint ∈ policy.clientHints, hint <:+: Text.lower (t.text r) := by
  simp only [hasTellingName, List.any_eq_true, Text.occurs_iff]

theorem suggests_iff {r : Nat} :
    t.Suggests policy r (t.enclosingScope r) ↔
      t.type r = "identifier" ∧ t.isLocal r = true ∧ t.hasTellingName policy r = true := by
  rw [isLocal_iff, hasTellingName_iff]
  exact ⟨fun h => ⟨h.identifier, h.bound, h.telling⟩, fun h => ⟨h.1, h.2.1, h.2.2⟩⟩

theorem means_receiver (r : Nat) :
    t.Means policy r (t.enclosingScope r) (t.receiver policy (some r)) := by
  have found : t.Resolves policy r (t.receiver policy (some r)) := t.resolves r
  generalize t.receiver policy (some r) = what at found ⊢
  cases found with
  | constructed constructs => exact .constructed constructs
  | traced other isVariable first =>
    exact .traced other ((clientAssignment_eq_some_iff isVariable).mp first)
  | named other untraced identifier isLocal telling =>
    have none := untraced (isVariable_of_identifier identifier)
    exact .named other (clientAssignment_eq_none_iff.mp none)
      (suggests_iff.mpr ⟨identifier, isLocal, telling⟩)
  | unknown other untraced unnamed =>
    exact .unknown other (fun v => clientAssignment_eq_none_iff.mp (untraced v))
      fun suggests => unnamed (suggests_iff.mp suggests)

theorem Traces.unique {r s a b : Nat} (ha : t.Traces policy r s a) (hb : t.Traces policy r s b) :
    a = b :=
  Nat.le_antisymm (ha.first b hb.inside hb.assigns) (hb.first a ha.inside ha.assigns)

theorem Means.unique {r s : Nat} {a b : Receiver} (ha : t.Means policy r s a)
    (hb : t.Means policy r s b) : a = b := by
  cases ha with
  | constructed constructs =>
    cases hb with
    | constructed => rfl
    | traced other | named other | unknown other => simp [constructs] at other
  | traced other traces =>
    cases hb with
    | constructed constructs => simp [constructs] at other
    | traced _ traces' => rw [traces.unique traces']
    | named _ untraced => exact absurd traces.assigns (untraced _ traces.inside)
    | unknown _ untraced =>
      exact absurd traces.assigns (untraced traces.isVariable _ traces.inside)
  | named other untraced suggests =>
    cases hb with
    | constructed constructs => simp [constructs] at other
    | traced _ traces => exact absurd traces.assigns (untraced _ traces.inside)
    | named => rfl
    | unknown _ _ unnamed => exact absurd suggests unnamed
  | unknown other untraced unnamed =>
    cases hb with
    | constructed constructs => simp [constructs] at other
    | traced _ traces =>
      exact absurd traces.assigns (untraced traces.isVariable _ traces.inside)
    | named _ _ suggests => exact absurd suggests unnamed
    | unknown => rfl

/-- Every node has one scope, the nodes of a scope are those of its region in document order, each
of them once, and a receiver is found to be what it stands for in its scope. -/
theorem receiver_eq_iff_means (t : Tree) (policy : Policy) (r : Nat) :
    (∀ s, t.ScopeOf r s ↔ s = t.enclosingScope r) ∧
    (∀ s, (t.scopeNodes s).Pairwise (· < ·) ∧ ∀ i, i ∈ t.scopeNodes s ↔ t.InRegion s i) ∧
    ∀ what, t.receiver policy (some r) = what ↔ t.Means policy r (t.enclosingScope r) what := by
  refine ⟨fun s => scopeOf_iff, fun s => ⟨scopeNodes_pairwise s, fun i => mem_scopeNodes_iff⟩, ?_⟩
  intro what
  constructor
  · intro same
    exact same ▸ means_receiver r
  · intro means
    exact (means_receiver r).unique means

end PromptAudit.Tree
