import Mathlib.Data.List.Lex
import PromptAudit.Proofs.Tree.Numbering

namespace PromptAudit.Tree

/-- The tree at a place in a row: its root and the row of its children. -/
def Forest.get? : Forest → Nat → Option (Shape × Forest)
  | .none, _ => Option.none
  | .more shape children _, 0 => some (shape, children)
  | .more _ _ rest, k + 1 => rest.get? k

/-- The node to which a way leads from a root. Each step of a way says which child is next. -/
def Forest.at? (shape : Shape) (children : Forest) : List Nat → Option Shape
  | [] => some shape
  | k :: way => (children.get? k).bind fun child => at? child.1 child.2 way

/-- The number to which a way leads by the lists of children. -/
def follow (t : Tree) (i : Nat) : List Nat → Option Nat
  | [] => some i
  | k :: way => ((t.childrenOf i)[k]?).bind fun c => t.follow c way

/-- One node is met before another: it stands around it, or where their ways part it is on the one
that goes to the earlier child. -/
def WayBefore (v w : List Nat) : Prop := List.Lex (· < ·) v w

variable (t : Tree)

/-- A tree has its root at a number, and what is below it at the numbers after that. -/
structure Rooted (i : Nat) (shape : Shape) (children : Forest) : Prop where
  here : (t.entry i).shape = shape
  listed : t.childrenOf i = children.roots (i + 1)
  below : t.Stands (some i) (i + 1) children

theorem rooted_root : t.Rooted 0 t.root t.children := by
  have top := t.stands
  cases top with
  | more root below after => exact ⟨congrArg Entry.shape root, congrArg Entry.children root, below⟩

variable {t}

/-- The trees of a row and their numbers go together. -/
theorem Stands.get? {parent : Option Nat} {first : Nat} {f : Forest} (h : t.Stands parent first f)
    (k : Nat) :
    (f.get? k = Option.none ∧ (f.roots first)[k]? = Option.none) ∨
    ∃ i shape children, f.get? k = some (shape, children) ∧ (f.roots first)[k]? = some i ∧
      t.Rooted i shape children := by
  induction h generalizing k with
  | none => exact .inl ⟨rfl, rfl⟩
  | @more parent first shape children rest root below after _ ih =>
    cases k with
    | zero =>
      have here : t.Rooted first shape children :=
        ⟨congrArg Entry.shape root, congrArg Entry.children root, below⟩
      exact .inr ⟨first, shape, children, rfl, rfl, here⟩
    | succ k => exact ih k

/-- The lists of children lead from node to node just as the tree does. -/
theorem Rooted.map_follow {i : Nat} {shape : Shape} {children : Forest}
    (h : t.Rooted i shape children) (way : List Nat) :
    (t.follow i way).map (fun j => (t.entry j).shape) = Forest.at? shape children way := by
  induction way generalizing i shape children with
  | nil => simp [follow, Forest.at?, h.here]
  | cons k way ih =>
    simp only [follow, Forest.at?, h.listed]
    rcases h.below.get? k with ⟨nothing, past⟩ | ⟨c, childShape, inner, child, listed, rooted⟩
    · simp [nothing, past]
    · simpa [child, listed] using ih rooted

theorem follow_append (i : Nat) (v w : List Nat) :
    t.follow i (v ++ w) = (t.follow i v).bind fun j => t.follow j w := by
  induction v generalizing i with
  | nil => rfl
  | cons k v ih =>
    simp only [List.cons_append, follow, Option.bind_assoc]
    congr 1
    funext c
    exact ih c

theorem mem_of_follow {i j : Nat} {way : List Nat} (leads : t.follow i way = some j) :
    j ∈ i :: t.descendants i := by
  induction way generalizing i with
  | nil => simp_all [follow]
  | cons k way ih =>
    obtain ⟨c, listed, further⟩ := Option.bind_eq_some_iff.mp leads
    have child : c ∈ t.childrenOf i := List.mem_of_getElem? listed
    have up : t.Below c i := .single (t.mem_childrenOf_iff.mp child)
    apply List.mem_cons_of_mem
    rw [mem_descendants_iff]
    rcases List.mem_cons.mp (ih further) with same | inner
    · exact same ▸ up
    · exact (mem_descendants_iff.mp inner).trans up

theorem lt_size_of_follow {i j : Nat} {way : List Nat} (inside : i < t.size)
    (leads : t.follow i way = some j) : j < t.size := by
  rcases List.mem_cons.mp (mem_of_follow leads) with same | inner
  · exact same ▸ inside
  · exact lt_size_of_below (mem_descendants_iff.mp inner)

/-- Two ways that part lead into the subtrees of different children, the earlier of which has the
smaller numbers throughout. -/
theorem lt_of_wayBefore {i a b : Nat} {v w : List Nat} (before : WayBefore v w)
    (first : t.follow i v = some a) (second : t.follow i w = some b) : a < b := by
  induction before generalizing i with
  | @nil k w =>
    obtain ⟨c, listed, further⟩ := Option.bind_eq_some_iff.mp second
    have child : c ∈ t.childrenOf i := List.mem_of_getElem? listed
    have low := (t.bounds_of_mem_childrenOf child).1
    have same : i = a := Option.some.inj first
    rcases List.mem_cons.mp (mem_of_follow further) with rfl | inner
    · omega
    · have := (mem_descendants_iff.mp inner).lt
      omega
  | @cons k v w _ ih =>
    obtain ⟨c, listed, further⟩ := Option.bind_eq_some_iff.mp first
    obtain ⟨c', listed', further'⟩ := Option.bind_eq_some_iff.mp second
    have same : c = c' := Option.some.inj (listed.symm.trans listed')
    subst same
    exact ih further further'
  | @rel k v l w earlier =>
    obtain ⟨c, listed, further⟩ := Option.bind_eq_some_iff.mp first
    obtain ⟨c', listed', further'⟩ := Option.bind_eq_some_iff.mp second
    have ordered := t.descendants_pairwise i
    have each : t.descendants i = (t.childrenOf i).flatMap fun c => c :: t.descendants c := by
      rw [descendants, inside_eq]
      rfl
    rw [each, List.pairwise_flatMap] at ordered
    obtain ⟨hk, rfl⟩ := List.getElem?_eq_some_iff.mp listed
    obtain ⟨hl, rfl⟩ := List.getElem?_eq_some_iff.mp listed'
    have apart := List.pairwise_iff_getElem.mp ordered.2 k l hk hl earlier
    exact apart a (mem_of_follow further) b (mem_of_follow further')

theorem wayBefore_total (v w : List Nat) : v = w ∨ WayBefore v w ∨ WayBefore w v := by
  rcases trichotomous_of (List.Lex (· < ·)) v w with h | h | h
  · exact .inr (.inl h)
  · exact .inl h
  · exact .inr (.inr h)

/-- Numbers follow the order in which the nodes are met. -/
theorem lt_iff_wayBefore {i a b : Nat} {v w : List Nat} (first : t.follow i v = some a)
    (second : t.follow i w = some b) : a < b ↔ WayBefore v w := by
  constructor
  · intro smaller
    rcases wayBefore_total v w with same | before | behind
    · subst same
      have := Option.some.inj (first.symm.trans second)
      omega
    · exact before
    · have := lt_of_wayBefore behind second first
      omega
  · intro before
    exact lt_of_wayBefore before first second

theorem eq_of_follow {i j : Nat} {v w : List Nat} (first : t.follow i v = some j)
    (second : t.follow i w = some j) : v = w := by
  rcases wayBefore_total v w with same | before | behind
  · exact same
  · exact absurd (lt_of_wayBefore before first second) (Nat.lt_irrefl j)
  · exact absurd (lt_of_wayBefore behind second first) (Nat.lt_irrefl j)

/-- Below a root every node has a parent. -/
theorem Stands.exists_parent {p first : Nat} {f : Forest} (h : t.Stands (some p) first f) {i : Nat}
    (low : first ≤ i) (high : i < first + f.size) : ∃ q, t.parent i = some q := by
  generalize up : some p = parent at h
  induction h generalizing p with
  | none => exact absurd high (by simp only [Forest.size]; omega)
  | @more parent first shape children rest root below after ihc ihr =>
    subst up
    simp only [Forest.size] at high
    rcases Nat.lt_or_ge i (first + 1) with here | later
    · have same : i = first := by omega
      subst same
      exact ⟨p, congrArg Entry.parent root⟩
    · rcases Nat.lt_or_ge i (first + 1 + children.size) with inside | behind
      · exact ihc later inside rfl
      · exact ihr behind (by omega) rfl

variable (t)

theorem size_pos : 0 < t.size := by
  rw [size_eq]
  omega

theorem parent_eq_none_iff {i : Nat} (inside : i < t.size) : t.parent i = none ↔ i = 0 := by
  constructor
  · intro top
    apply Nat.eq_zero_of_not_pos
    intro positive
    rw [size_eq] at inside
    obtain ⟨q, up⟩ := t.rooted_root.below.exists_parent (i := i) (by omega) (by omega)
    rw [top] at up
    cases up
  · intro same
    subst same
    cases up : t.parent 0 with
    | none => rfl
    | some p => exact absurd (t.parent_lt up) (Nat.not_lt_zero p)

theorem exists_follow {i : Nat} (inside : i < t.size) : ∃ way, t.follow 0 way = some i := by
  induction i using Nat.strongRecOn with
  | ind i ih =>
    cases up : t.parent i with
    | none =>
      have same : i = 0 := (t.parent_eq_none_iff inside).mp up
      exact ⟨[], same ▸ rfl⟩
    | some p =>
      have low := t.parent_lt up
      obtain ⟨way, leads⟩ := ih p low (Nat.lt_trans low inside)
      obtain ⟨k, listed⟩ := List.getElem?_of_mem (t.mem_childrenOf_iff.mpr up)
      refine ⟨way ++ [k], ?_⟩
      simp [follow_append, leads, follow, listed]

theorem childrenOf_pairwise (i : Nat) : (t.childrenOf i).Pairwise (· < ·) :=
  (t.descendants_pairwise i).sublist (t.childrenOf_sublist i)

/-- When nothing is shut off, a walk over a row meets all of its numbers. -/
theorem Forest.walk_all (f : Forest) (first : Nat) :
    f.walk (fun _ => true) first = List.range' first f.size := by
  induction f generalizing first with
  | none => rfl
  | more shape children rest ihc ihr =>
    rw [walk, if_pos rfl, ihc, ihr, size, Nat.add_assoc 1, Nat.add_comm 1, List.range'_succ]
    congr 1
    rw [List.range'_append_1]

/-- The row of children of a node takes up the numbers after its own. -/
theorem exists_block (i : Nat) :
    ∃ c : Forest, t.childrenOf i = c.roots (i + 1) ∧ t.Stands (some i) (i + 1) c ∧
      t.descendants i = List.range' (i + 1) c.size := by
  obtain ⟨c, children, below⟩ := t.exists_stands_below i
  refine ⟨c, children, below, ?_⟩
  rw [descendants, inside_eq, children, below.flatMap_inside, Forest.walk_all]

theorem exists_descendants_eq {i : Nat} (inside : i < t.size) :
    ∃ k, i + k < t.size ∧ t.descendants i = List.range' (i + 1) k := by
  obtain ⟨c, -, -, block⟩ := t.exists_block i
  refine ⟨c.size, ?_, block⟩
  rcases Nat.eq_zero_or_pos c.size with empty | filled
  · omega
  · have last : i + c.size ∈ t.descendants i := by
      rw [block, List.mem_range'_1]
      omega
    exact lt_size_of_below (mem_descendants_iff.mp last)

theorem ancestors_pairwise (i : Nat) : (t.ancestors i).Pairwise (· > ·) := by
  induction i using Nat.strongRecOn with
  | ind i ih =>
    cases up : t.parent i with
    | none =>
      rw [t.ancestors_of_no_parent up]
      exact .nil
    | some p =>
      rw [t.ancestors_of_parent up, List.pairwise_cons]
      refine ⟨?_, ih p (t.parent_lt up)⟩
      intro a higher
      exact Below.lt (t.mem_ancestors_iff.mp higher)

/-- Every way up ends at the root. -/
theorem getLast?_ancestors {i : Nat} (inside : i < t.size) :
    (i :: t.ancestors i).getLast? = some 0 := by
  induction i using Nat.strongRecOn with
  | ind i ih =>
    cases up : t.parent i with
    | none =>
      have same : i = 0 := (t.parent_eq_none_iff inside).mp up
      rw [t.ancestors_of_no_parent up, same]
      rfl
    | some p =>
      have low := t.parent_lt up
      rw [t.ancestors_of_parent up, List.getLast?_cons_cons]
      exact ih p low (Nat.lt_trans low inside)

end PromptAudit.Tree
