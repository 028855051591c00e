namespace PromptAudit.Tree

/-- What a grammar says of one named node: its type, the bytes it covers, the field under which
it hangs in its parent, and whether the parser only supposed it. -/
structure Shape where
  type : String
  start : Nat
  stop : Nat
  field : Option String
  missing : Bool
  deriving DecidableEq, Repr

/-- A row of sibling trees: the first one's root and the row of its children, and the rest of
the row. Recursion over it is plain recursion. -/
inductive Forest
  | none
  | more (root : Shape) (children rest : Forest)
  deriving Repr

namespace Forest

def size : Forest → Nat
  | none => 0
  | more _ c r => 1 + c.size + r.size

/-- Where the roots of a row stand when its first node has number `at`. -/
def roots (first : Nat) : Forest → List Nat
  | none => []
  | more _ c r => first :: roots (first + 1 + c.size) r

end Forest

/-- A node as numbered in document order, with the numbers of its parent and children. -/
structure Entry where
  shape : Shape
  parent : Option Nat
  children : List Nat
  deriving Repr

/-- Numbers a row from `first` on, parents before children and children in order. -/
def Forest.entries (parent : Option Nat) (first : Nat) : Forest → List Entry
  | none => []
  | more s c r =>
      ⟨s, parent, c.roots (first + 1)⟩ ::
        (c.entries (some first) (first + 1) ++ r.entries parent (first + 1 + c.size))

namespace Forest

theorem length_entries (f : Forest) (parent : Option Nat) (first : Nat) :
    (f.entries parent first).length = f.size := by
  induction f generalizing parent first with
  | none => rfl
  | more s c r ihc ihr =>
    simp only [entries, List.length_cons, List.length_append, ihc, ihr, size]
    omega

theorem mem_roots_bounds (f : Forest) (first i : Nat) (h : i ∈ f.roots first) :
    first ≤ i ∧ i < first + f.size := by
  induction f generalizing first with
  | none => simp [roots] at h
  | more s c r _ ihr =>
    simp only [roots, List.mem_cons, size] at h ⊢
    rcases h with h | h
    · omega
    · have := ihr _ h
      omega

/-- Children are numbered after their parent and within the row. -/
theorem children_bounds (f : Forest) (parent : Option Nat) (first k i : Nat) (e : Entry)
    (he : (f.entries parent first)[k]? = some e) (hi : i ∈ e.children) :
    first + k < i ∧ i < first + f.size := by
  induction f generalizing parent first k with
  | none => simp [entries] at he
  | more s c r ihc ihr =>
    simp only [entries, size] at he ⊢
    match k with
    | 0 =>
      simp only [List.getElem?_cons_zero, Option.some.injEq] at he
      subst he
      have := mem_roots_bounds c _ _ hi
      omega
    | k + 1 =>
      simp only [List.getElem?_cons_succ, List.getElem?_append, length_entries] at he
      split at he
      · have := ihc _ _ _ he
        omega
      · have := ihr _ _ _ he
        omega

/-- A parent within the row is numbered before its children. -/
theorem parent_bounds (f : Forest) (parent : Option Nat) (first k p : Nat) (e : Entry)
    (above : ∀ q, parent = some q → q < first)
    (he : (f.entries parent first)[k]? = some e) (hp : e.parent = some p) :
    p < first + k := by
  induction f generalizing parent first k with
  | none => simp [entries] at he
  | more s c r ihc ihr =>
    simp only [entries] at he
    match k with
    | 0 =>
      simp only [List.getElem?_cons_zero, Option.some.injEq] at he
      subst he
      exact above _ hp
    | k + 1 =>
      simp only [List.getElem?_cons_succ, List.getElem?_append, length_entries] at he
      split at he
      · have := ihc _ _ _ (by intro q hq; cases hq; omega) he
        omega
      · have := ihr _ _ _ (by intro q hq; have := above q hq; omega) he
        omega

end Forest

end PromptAudit.Tree
