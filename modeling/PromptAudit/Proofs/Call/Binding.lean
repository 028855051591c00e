import PromptAudit.Proofs.Call.Resolution
import PromptAudit.Proofs.Tree.Sketch

namespace PromptAudit.Tree

/-- A list of parameters declares a name: one of its parameters is the name or is called by it. -/
inductive DeclaresName (t : Tree) (name : Text) (list : Nat) : Prop
  | bare {d : Nat} (isList : t.isParameterList list = true) (child : d ∈ t.childrenOf list)
      (identifier : t.type d = "identifier") (called : t.text d = name) : DeclaresName t name list
  | held {parameter d : Nat} (isList : t.isParameterList list = true)
      (child : parameter ∈ t.childrenOf list) (named : t.field parameter "name" = some d)
      (called : t.text d = name) : DeclaresName t name list

/-- A node binds a name for a later node in the same scope. -/
structure OwnBinding (t : Tree) (r i : Nat) : Prop where
  scope : t.enclosingScope i = t.enclosingScope r
  binds : t.AssignsName (t.text r) (t.start r) i ∨ t.DeclaresName (t.text r) i

/-- The scope of a node holds no other one, unless it is the top level, and its lists of parameters
have the node's name only where they declare it. -/
structure KeepsNames (t : Tree) (r : Nat) : Prop where
  undivided : t.type (t.enclosingScope r) = "program" ∨
    ∀ m, t.Below m (t.enclosingScope r) → t.opensScope m = false
  declared : ∀ i, t.InRegion (t.enclosingScope r) i → t.MentionsName (t.text r) i →
    t.DeclaresName (t.text r) i

variable {t : Tree} {policy : Policy}

theorem enclosingScope_eq_iff_unparted {i b : Nat} (below : t.Below b (t.enclosingScope i)) :
    t.enclosingScope b = t.enclosingScope i ↔ t.Unparted b (t.enclosingScope i) := by
  constructor
  · intro same
    have scope : t.ScopeOf b (t.enclosingScope i) := scopeOf_iff.mpr same.symm
    generalize t.enclosingScope i = s at scope below
    cases scope with
    | nearest _ _ first => exact first
    | topmost _ _ closed => exact fun m low _ => closed m low
    | alone => exact absurd below.lt (Nat.lt_irrefl _)
  · intro unparted
    exact (scopeOf_iff.mp ((scopeOf_enclosingScope i).of_unparted below unparted)).symm

theorem KeepsNames.unparted {r i : Nat} (keeps : t.KeepsNames r)
    (inside : t.InRegion (t.enclosingScope r) i) : t.Unparted i (t.enclosingScope r) := by
  rcases keeps.undivided with program | whole
  · exact inside.unparted program
  · exact fun m _ high => whole m high

theorem receiver_of_call {n r : Nat} {c : Call} (called : t.call policy n = some c)
    (named : c.receiver = .named r) :
    t.field n "receiver" = some r ∧ t.receiver policy (some r) = .named r := by
  obtain ⟨method, -, -, rfl⟩ := call_eq_some called
  cases hr : t.field n "receiver" with
  | none => simp [hr, receiver] at named
  | some i =>
    simp only [hr] at named
    have resolved : t.Resolves policy i (.named r) := by
      rw [← named]
      exact t.resolves i
    cases resolved.node_eq
    exact ⟨rfl, named⟩

theorem suggests_of_named {r : Nat} (named : t.receiver policy (some r) = .named r) :
    t.Suggests policy r (t.enclosingScope r) := by
  have means : t.Means policy r (t.enclosingScope r) (.named r) := by
    rw [← named]
    exact means_receiver r
  cases means with
  | named _ _ suggests => exact suggests

theorem DeclaresName.isParameterList {name : Text} {i : Nat} (h : t.DeclaresName name i) :
    t.isParameterList i = true := by
  cases h <;> assumption

theorem lt_size_of_ownBinding {r i : Nat} (h : t.OwnBinding r i) : i < t.size := by
  refine lt_size_of_type fun empty => ?_
  rcases h.binds with assigns | declares
  · simpa [isAssignment, empty] using assigns.assigns
  · simpa [isParameterList, empty] using declares.isParameterList

/-- A receiver that is a client by its name only has that name bound in the region of its scope: by
an assignment before it, or by being somewhere in a list of parameters. The binding is one of the
receiver's own scope unless another scope lies between. Where the scope keeps its names to itself,
the name is bound in the receiver's own scope. -/
theorem call_named_binding {n r : Nat} {c : Call} (called : t.call policy n = some c)
    (named : c.receiver = .named r) :
    t.field n "receiver" = some r ∧
    (∃ i, t.InRegion (t.enclosingScope r) i ∧
      (t.AssignsName (t.text r) (t.start r) i ∨ t.MentionsName (t.text r) i) ∧
      (t.enclosingScope i = t.enclosingScope r ↔ t.Unparted i (t.enclosingScope r))) ∧
    (t.KeepsNames r → ∃ i, t.OwnBinding r i) := by
  obtain ⟨received, found⟩ := receiver_of_call called named
  obtain ⟨i, inside, binds⟩ := (suggests_of_named found).bound
  have own := enclosingScope_eq_iff_unparted inside.below
  refine ⟨received, ⟨i, inside, binds, own⟩, fun keeps => ⟨i, ?_⟩⟩
  refine ⟨own.mpr (keeps.unparted inside), ?_⟩
  rcases binds with assigns | mentions
  · exact .inl assigns
  · exact .inr (keeps.declared i inside mentions)

open Shape (plain held)
open Forest (leaf only)

/-- A method that is given the client it calls. -/
def lent : Tree where
  source := Text.encode "def f(client, a = 1)\n  client.chat(model: 1)\nend\n".toList
  root := plain "program" 0 49
  children :=
    only (plain "method" 0 48) <|
      leaf (held "name" "identifier" 4 5) <|
      .more (held "parameters" "method_parameters" 5 20)
        (leaf (plain "identifier" 6 12) <|
          only (plain "optional_parameter" 14 19) <|
            leaf (held "name" "identifier" 14 15) <| leaf (held "value" "integer" 18 19) .none) <|
      only (held "body" "body_statement" 23 44) (clientChat 23 .none)
  broken := false

/-- A class with two calls on `client`, which is no variable for either: a parameter of another
method for the one in the class, and no parameter but the default of one for the other. -/
def borrowed : Tree where
  source := Text.encode ("class C\n  def f(client)\n  end\n  def g(a = client)\n" ++
    "    client.chat(model: 1)\n  end\n  client.chat(model: 1)\nend\n").toList
  root := plain "program" 0 110
  children :=
    only (plain "class" 0 109) <|
      leaf (held "name" "constant" 6 7) <|
      only (held "body" "body_statement" 10 105) <|
        .more (plain "method" 10 29)
          (leaf (held "name" "identifier" 14 15) <|
            only (held "parameters" "method_parameters" 15 23) <|
              leaf (plain "identifier" 16 22) .none) <|
        .more (plain "method" 32 81)
          (leaf (held "name" "identifier" 36 37) <|
            .more (held "parameters" "method_parameters" 37 49)
              (only (plain "optional_parameter" 38 48) <|
                leaf (held "name" "identifier" 38 39) <|
                leaf (held "value" "identifier" 42 48) .none) <|
            only (held "body" "body_statement" 54 75) (clientChat 54 .none)) <|
        clientChat 84 .none
  broken := false

/-- The receiver is the parameter `client`. -/
theorem lent_binding :
    (∃ c, lent.call .standard 9 = some c ∧ c.receiver = .named 10) ∧ lent.KeepsNames 10 ∧
      ∃ i, lent.OwnBinding 10 i := by
  have reads : (lent.call .standard 9).map Call.receiver = some (.named 10) := by decide +kernel
  have scope : lent.enclosingScope 10 = 1 := by decide +kernel
  have nodes : lent.descendants 1 = [2, 3, 4, 5, 6, 7, 8, 9, 10, 11, 12, 13, 14, 15] := by
    decide +kernel
  have undivided : ∀ m ∈ lent.descendants 1, lent.opensScope m = false := by
    rw [nodes]
    decide +kernel
  have lists : ∀ i ∈ lent.descendants 1, lent.isParameterList i = true → i = 3 := by
    rw [nodes]
    decide +kernel
  have isList : lent.isParameterList 3 = true := by decide +kernel
  have child : 4 ∈ lent.childrenOf 3 := by decide +kernel
  have identifier : lent.type 4 = "identifier" := by decide +kernel
  have same : lent.text 4 = lent.text 10 := by decide +kernel
  have keeps : lent.KeepsNames 10 := by
    constructor
    · rw [scope]
      exact .inr fun m below => undivided m (mem_descendants_iff.mpr below)
    · rw [scope]
      intro i inside mentions
      cases lists i (mem_descendants_iff.mpr inside.below) mentions.list
      exact .bare isList child identifier same
  obtain ⟨c, called, named⟩ := Option.map_eq_some_iff.mp reads
  exact ⟨⟨c, called, named⟩, keeps, (call_named_binding called named).2.2 keeps⟩

/-- Both calls have a client as receiver, and the scope of neither binds its name. -/
theorem borrowed_not_bound :
    (borrowed.call .standard 15).map Call.receiver = some (.named 16) ∧
      (borrowed.call .standard 22).map Call.receiver = some (.named 23) ∧
      ¬ (∃ i, borrowed.OwnBinding 16 i) ∧ ¬ ∃ i, borrowed.OwnBinding 23 i := by
  have lists : ∀ i < borrowed.size, borrowed.isParameterList i = true → i = 6 ∨ i = 10 := by
    decide +kernel
  have unassigned : ∀ i < borrowed.size, borrowed.isAssignment i = false := by decide +kernel
  have scopes : borrowed.enclosingScope 6 = 4 ∧ borrowed.enclosingScope 10 = 8 ∧
      borrowed.enclosingScope 16 = 8 ∧ borrowed.enclosingScope 23 = 1 := by decide +kernel
  have listed {r i : Nat} (own : borrowed.OwnBinding r i) :
      borrowed.DeclaresName (borrowed.text r) i ∧ (i = 6 ∨ i = 10) := by
    have inside := lt_size_of_ownBinding own
    rcases own.binds with assigns | declares
    · simpa [unassigned i inside] using assigns.assigns
    · exact ⟨declares, lists i inside declares.isParameterList⟩
  refine ⟨by decide +kernel, by decide +kernel, ?_, ?_⟩
  · rintro ⟨i, own⟩
    obtain ⟨declares, rfl | rfl⟩ := listed own
    · simpa [scopes] using own.scope
    · have children : borrowed.childrenOf 10 = [11] := by decide +kernel
      have type : borrowed.type 11 ≠ "identifier" := by decide +kernel
      have name : borrowed.field 11 "name" = some 12 := by decide +kernel
      have other : borrowed.text 12 ≠ borrowed.text 16 := by decide +kernel
      cases declares with
      | bare _ child identifier _ =>
        rw [children, List.mem_singleton] at child
        exact type (child ▸ identifier)
      | held _ child named called =>
        rw [children, List.mem_singleton] at child
        subst child
        cases name.symm.trans named
        exact other called
  · rintro ⟨i, own⟩
    obtain ⟨-, rfl | rfl⟩ := listed own <;> simpa [scopes] using own.scope

end PromptAudit.Tree
