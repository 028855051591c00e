import PromptAudit.Proofs.Call.Keyword

namespace PromptAudit.Tree

variable {t : Tree} {policy : Policy}

/-- A reference made of constants has at least one segment. -/
theorem constantPath_ne_nil {i : Nat} {path : List Text} (h : t.constantPath i = some path) :
    path ≠ [] := by
  rw [constantPath] at h
  split_ifs at h
  · cases h
    exact List.cons_ne_nil _ _
  · cases hn : t.field i "name" with
    | none => simp [hn] at h
    | some name =>
      simp only [hn] at h
      split_ifs at h
      split at h
      · cases h
        exact List.cons_ne_nil _ _
      · obtain ⟨outer, -, same⟩ := Option.map_eq_some_iff.mp h
        rw [← same]
        exact List.append_ne_nil_of_right_ne_nil _ (List.cons_ne_nil _ _)

/-- A client is constructed by `new` on the path of a client type. -/
theorem constructsClient_iff {i : Nat} :
    t.constructsClient policy i = true ↔
      t.kind i = .call ∧
      (∃ method, t.field i "method" = some method ∧ t.text method = "new".toList) ∧
      ∃ target path, t.field i "receiver" = some target ∧ t.constantPath target = some path ∧
        path ∈ policy.clientPaths := by
  simp only [constructsClient, Bool.and_eq_true, decide_eq_true_eq, Option.any_eq_true,
    Option.bind_eq_some_iff, List.contains_iff_mem, and_assoc]
  constructor
  · intro h
    obtain ⟨isCall, method, path, ⟨target, receiver, reads⟩, client⟩ := h
    exact ⟨isCall, method, target, path, receiver, reads, client⟩
  · intro h
    obtain ⟨isCall, method, target, path, receiver, reads, client⟩ := h
    exact ⟨isCall, method, path, ⟨target, receiver, reads⟩, client⟩

/-- What a receiver is found to be, in the order in which the possibilities are tried. -/
inductive Resolves (t : Tree) (policy : Policy) (i : Nat) : Receiver → Prop
  | constructed (constructs : t.constructsClient policy i = true) :
      Resolves t policy i (.constructed i)
  | traced {origin : Nat} (other : t.constructsClient policy i = false)
      (isVariable : t.isVariable i = true) (first : t.clientAssignment policy i = some origin) :
      Resolves t policy i (.traced i origin)
  | named (other : t.constructsClient policy i = false)
      (untraced : t.isVariable i = true → t.clientAssignment policy i = none)
      (identifier : t.type i = "identifier") (isLocal : t.isLocal i = true)
      (telling : t.hasTellingName policy i = true) : Resolves t policy i (.named i)
  | unknown (other : t.constructsClient policy i = false)
      (untraced : t.isVariable i = true → t.clientAssignment policy i = none)
      (unnamed : ¬ (t.type i = "identifier" ∧ t.isLocal i = true ∧
        t.hasTellingName policy i = true)) : Resolves t policy i (.unknown (some i))

theorem resolves (i : Nat) : t.Resolves policy i (t.resolve policy i) := by
  unfold resolve
  by_cases constructs : t.constructsClient policy i = true
  · rw [if_pos constructs]
    exact .constructed constructs
  · rw [if_neg constructs]
    have other : t.constructsClient policy i = false := eq_false_of_ne_true constructs
    cases h : if t.isVariable i = true then t.clientAssignment policy i else none with
    | some origin =>
      rw [Option.ite_none_right_eq_some] at h
      exact .traced other h.1 h.2
    | none =>
      have untraced : t.isVariable i = true → t.clientAssignment policy i = none := by
        intro isVariable
        rwa [if_pos isVariable] at h
      simp only [Bool.and_eq_true, decide_eq_true_eq, and_assoc]
      split_ifs with named
      · exact .named other untraced named.1 named.2.1 named.2.2
      · exact .unknown other untraced named

/-- How a client that a call is sent to is named: by the path of its type where its construction
is known, else by its own text. -/
inductive Designates (t : Tree) (policy : Policy) : Receiver → Text → Prop
  | constructed {node target : Nat} {path : List Text}
      (type : t.field node "receiver" = some target) (reads : t.constantPath target = some path)
      (client : path ∈ policy.clientPaths) :
      Designates t policy (.constructed node) (Text.join "::".toList path)
  | traced {node origin right target : Nat} {path : List Text}
      (first : t.clientAssignment policy node = some origin)
      (assigned : t.field origin "right" = some right)
      (type : t.field right "receiver" = some target) (reads : t.constantPath target = some path)
      (client : path ∈ policy.clientPaths) :
      Designates t policy (.traced node origin) (Text.join "::".toList path)
  | named {node : Nat} : Designates t policy (.named node) (t.text node)

theorem assignsClient_of_clientAssignment {i origin : Nat}
    (h : t.clientAssignment policy i = some origin) :
    ∃ right, t.field origin "right" = some right ∧ t.constructsClient policy right = true := by
  have assigns := List.find?_some h
  simp only [assignsClient, Bool.and_eq_true, Option.any_eq_true] at assigns
  exact assigns.2

theorem Resolves.node_eq {i : Nat} {r : Receiver} (h : t.Resolves policy i r) :
    r.node = some i := by
  cases h <;> rfl

theorem resolves_of_clientCall {methods : List Text} {i : Nat} {c : Call}
    (h : t.clientCall policy methods i = some c) :
    ∃ node, t.field i "receiver" = some node ∧ t.Resolves policy node c.receiver := by
  obtain ⟨isCall, -, client⟩ := clientCall_eq_some_iff.mp h
  obtain ⟨method, -, -, rfl⟩ := call_eq_some isCall
  cases hr : t.field i "receiver" with
  | none =>
    rw [hr] at client
    cases client
  | some node => exact ⟨node, rfl, t.resolves node⟩

/-- The name in the description of a client's call is found again where the client was found. -/
theorem describeCall_eq {methods : List Text} {i : Nat} {c : Call}
    (h : t.clientCall policy methods i = some c) :
    ∃ name, t.Designates policy c.receiver name ∧ t.describeCall c = name ++ '.' :: c.method := by
  obtain ⟨node, -, found⟩ := resolves_of_clientCall h
  cases hr : c.receiver with
  | constructed node =>
    rw [hr] at found
    cases found with
    | constructed constructs =>
      obtain ⟨-, -, target, path, type, reads, known⟩ := constructsClient_iff.mp constructs
      refine ⟨_, .constructed type reads known, ?_⟩
      simp [describeCall, hr, type, reads, constantPath_ne_nil reads]
  | traced node origin =>
    rw [hr] at found
    cases found with
    | traced other isVariable first =>
      obtain ⟨right, assigned, constructs⟩ := assignsClient_of_clientAssignment first
      obtain ⟨-, -, target, path, type, reads, known⟩ := constructsClient_iff.mp constructs
      refine ⟨_, .traced first assigned type reads known, ?_⟩
      simp [describeCall, hr, assigned, type, reads, constantPath_ne_nil reads]
  | named node =>
    refine ⟨_, .named, ?_⟩
    simp [describeCall, hr, Receiver.node]
  | unknown node =>
    have client := (clientCall_eq_some_iff.mp h).2.2
    rw [hr] at client
    cases client

end PromptAudit.Tree
