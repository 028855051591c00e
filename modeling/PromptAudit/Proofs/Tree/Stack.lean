import Mathlib.Logic.Function.Iterate
import PromptAudit.Proofs.Tree.Preorder

namespace PromptAudit.Tree

/-- A tree that is still to be numbered, with the number of its parent. -/
structure Waiting where
  shape : Shape
  children : Forest
  parent : Option Nat

/-- The trees of a row, as they wait for their numbers. -/
def Forest.waiting (parent : Option Nat) : Forest → List Waiting
  | .none => []
  | .more shape children rest => ⟨shape, children, parent⟩ :: rest.waiting parent

/-- A node gets further children at the end of its list. -/
def adopt (parent : Option Nat) (children : List Nat) (entries : List Entry) : List Entry :=
  match parent with
  | none => entries
  | some p => entries.modify p fun e => { e with children := e.children ++ children }

/-- A numbering under way: the stack of the trees to come, the next one on top, and the nodes that
have their numbers. -/
structure Draft where
  stack : List Waiting
  entries : List Entry

/-- The next tree is taken off the stack. Its root gets the next number and goes to the children of
its parent, and its own children go on the stack in its place. -/
def Draft.step : Draft → Draft
  | ⟨[], entries⟩ => ⟨[], entries⟩
  | ⟨next :: stack, entries⟩ =>
      ⟨next.children.waiting (some entries.length) ++ stack,
        adopt next.parent [entries.length] entries ++ [⟨next.shape, next.parent, []⟩]⟩

section Adopt

variable {parent : Option Nat} {children more : List Nat} {entries behind : List Entry} {e : Entry}

theorem adopt_nil : adopt parent [] entries = entries := by
  cases parent with
  | none => rfl
  | some p =>
    have same : (fun e : Entry => { e with children := e.children ++ [] }) = id := by
      funext e
      simp
    rw [adopt, same, List.modify_id]

theorem adopt_adopt :
    adopt parent more (adopt parent children entries) = adopt parent (children ++ more) entries := by
  cases parent with
  | none => rfl
  | some p => simp [adopt, List.modify_modify_eq, Function.comp_def]

theorem length_adopt : (adopt parent children entries).length = entries.length := by
  cases parent with
  | none => rfl
  | some p => simp [adopt]

theorem adopt_append (above : ∀ p, parent = some p → p < entries.length) :
    adopt parent children (entries ++ behind) = adopt parent children entries ++ behind := by
  cases parent with
  | none => rfl
  | some p =>
    have low := above p rfl
    have low' : p < (entries ++ behind).length := by
      rw [List.length_append]
      omega
    simp [adopt, List.modify_eq_take_cons_drop low, List.modify_eq_take_cons_drop low',
      List.take_append_of_le_length (Nat.le_of_lt low), List.drop_append_of_le_length low,
      List.getElem_append_left low]

theorem adopt_last :
    adopt (some entries.length) children (entries ++ [e]) =
      entries ++ [{ e with children := e.children ++ children }] := by
  simp [adopt, List.modify_eq_take_cons_drop]

end Adopt

/-- From a row on top of the stack, as many steps as it has nodes number it and leave the rest of
the stack. Only the children of its parent change in what was numbered before. -/
theorem Draft.step_row (f : Forest) (parent : Option Nat) (stack : List Waiting)
    (entries : List Entry) (above : ∀ p, parent = some p → p < entries.length) :
    Draft.step^[f.size] ⟨f.waiting parent ++ stack, entries⟩ =
      ⟨stack, adopt parent (f.roots entries.length) entries ++ f.entries parent entries.length⟩ := by
  induction f generalizing parent stack entries with
  | none => simp [Forest.size, Forest.waiting, Forest.roots, Forest.entries, adopt_nil]
  | more shape children rest ihc ihr =>
    let n := entries.length
    let started := adopt parent [n] entries ++ [⟨shape, parent, []⟩]
    let opened := adopt parent [n] entries ++ [⟨shape, parent, children.roots (n + 1)⟩]
    let filled := opened ++ children.entries (some n) (n + 1)
    have lengthStarted : started.length = n + 1 := by simp [started, length_adopt, n]
    have lengthOpened : opened.length = n + 1 := by simp [opened, length_adopt, n]
    have lengthFilled : filled.length = n + 1 + children.size := by
      simp [filled, lengthOpened, Forest.length_entries]
    have first : Draft.step ⟨(Forest.more shape children rest).waiting parent ++ stack, entries⟩ =
        ⟨children.waiting (some n) ++ (rest.waiting parent ++ stack), started⟩ := rfl
    have inner : Draft.step^[children.size]
        ⟨children.waiting (some n) ++ (rest.waiting parent ++ stack), started⟩ =
        ⟨rest.waiting parent ++ stack, filled⟩ := by
      rw [ihc (some n) _ started (by simp [lengthStarted]), lengthStarted]
      have told : adopt (some n) (children.roots (n + 1)) started = opened := by
        have last : adopt (some (adopt parent [n] entries).length) (children.roots (n + 1)) started =
            opened := adopt_last
        rwa [length_adopt] at last
      rw [told]
    have later : Draft.step^[rest.size] ⟨rest.waiting parent ++ stack, filled⟩ =
        ⟨stack, adopt parent (rest.roots (n + 1 + children.size)) filled ++
          rest.entries parent (n + 1 + children.size)⟩ := by
      rw [ihr parent stack filled ?_, lengthFilled]
      intro p same
      have := above p same
      omega
    have kept : adopt parent (rest.roots (n + 1 + children.size)) filled =
        adopt parent (n :: rest.roots (n + 1 + children.size)) entries ++
          (⟨shape, parent, children.roots (n + 1)⟩ :: children.entries (some n) (n + 1)) := by
      have low : ∀ p, parent = some p → p < (adopt parent [n] entries).length := by
        rwa [length_adopt]
      simp only [filled, opened, List.append_assoc, List.singleton_append]
      rw [adopt_append low, adopt_adopt, List.singleton_append]
    rw [Forest.size, Nat.add_assoc, Nat.add_comm 1, Nat.add_comm children.size,
      Function.iterate_succ_apply, Function.iterate_add_apply, first, inner, later, kept,
      Forest.roots, Forest.entries, List.append_assoc, List.cons_append]

/-- A walk under way: the stack of the nodes to come, the next one on top, and the nodes met. -/
structure Tour where
  stack : List Nat
  met : List Nat

/-- The next node is met, and its children go on the stack in its place. -/
def Tour.step (t : Tree) : Tour → Tour
  | ⟨[], met⟩ => ⟨[], met⟩
  | ⟨i :: stack, met⟩ => ⟨t.childrenOf i ++ stack, met ++ [i]⟩

theorem Tour.step_row {t : Tree} {parent : Option Nat} {first : Nat} {f : Forest}
    (h : t.Stands parent first f) (stack met : List Nat) :
    (Tour.step t)^[f.size] ⟨f.roots first ++ stack, met⟩ =
      ⟨stack, met ++ List.range' first f.size⟩ := by
  induction h generalizing stack met with
  | none => simp [Forest.size, Forest.roots]
  | @more parent first shape children rest root below after ihc ihr =>
    have listed : t.childrenOf first = children.roots (first + 1) := congrArg Entry.children root
    have start : Tour.step t ⟨(Forest.more shape children rest).roots first ++ stack, met⟩ =
        ⟨children.roots (first + 1) ++ (rest.roots (first + 1 + children.size) ++ stack),
          met ++ [first]⟩ := by
      rw [Forest.roots, List.cons_append, Tour.step, listed]
    have numbers : List.range' first (rest.size + children.size + 1) =
        first :: (List.range' (first + 1) children.size ++
          List.range' (first + 1 + children.size) rest.size) := by
      rw [List.range'_succ, List.range'_append_1, Nat.add_comm rest.size]
    rw [Forest.size, Nat.add_assoc, Nat.add_comm 1, Nat.add_comm children.size,
      Function.iterate_succ_apply, Function.iterate_add_apply, start, ihc, ihr, numbers]
    simp

variable (t : Tree)

/-- Numbering with a stack comes to the entries of the tree, one node a step. -/
theorem entries_of_steps :
    Draft.step^[t.size] ⟨[⟨t.root, t.children, none⟩], []⟩ = ⟨[], t.entries.toList⟩ := by
  have row := Draft.step_row (.more t.root t.children .none) none [] [] (by simp)
  have size : t.size = (Forest.more t.root t.children .none).size := by
    rw [size_eq, Forest.size, Forest.size]
    omega
  rw [size, t.entries_eq]
  simpa [Forest.waiting, adopt] using row

/-- Walking with a stack meets the descendants of a node, in their order. -/
theorem descendants_of_steps (i : Nat) :
    ∃ n, (Tour.step t)^[n] ⟨t.childrenOf i, []⟩ = ⟨[], t.descendants i⟩ := by
  obtain ⟨c, children, below, block⟩ := t.exists_block i
  have row := Tour.step_row below [] []
  refine ⟨c.size, ?_⟩
  rw [children, block]
  simpa using row

/-- A tree has its nodes under numbers in document order: a node is found under one number, where
the tree has it, and parents and children know each other. -/
structure NumbersInOrder : Prop where
  built : Draft.step^[t.size] ⟨[⟨t.root, t.children, none⟩], []⟩ = ⟨[], t.entries.toList⟩
  faithful (way : List Nat) :
    (t.follow 0 way).map (fun i => (t.entry i).shape) = Forest.at? t.root t.children way
  once (i : Nat) : i < t.size ↔ ∃! way, t.follow 0 way = some i
  ordered {v w : List Nat} {i j : Nat} (first : t.follow 0 v = some i)
    (second : t.follow 0 w = some j) : i < j ↔ WayBefore v w
  root {i : Nat} (inside : i < t.size) : t.parent i = none ↔ i = 0
  smaller {i p : Nat} (up : t.parent i = some p) : p < i
  ascending (i : Nat) : (t.childrenOf i).Pairwise (· < ·)
  converse {i p : Nat} : i ∈ t.childrenOf p ↔ t.parent i = some p

/-- From a node, the walk down meets the numbers that follow its own, and the walk up comes to the
root. -/
structure WalksInOrder (i : Nat) : Prop where
  block : ∃ k, i + k < t.size ∧ t.descendants i = List.range' (i + 1) k
  walked : ∃ n, (Tour.step t)^[n] ⟨t.childrenOf i, []⟩ = ⟨[], t.descendants i⟩
  descending : (t.ancestors i).Pairwise (· > ·)
  topmost : (i :: t.ancestors i).getLast? = some 0

theorem numbersInOrder : t.NumbersInOrder where
  built := t.entries_of_steps
  faithful := t.rooted_root.map_follow
  once i := by
    constructor
    · intro inside
      obtain ⟨way, leads⟩ := t.exists_follow inside
      refine ⟨way, leads, ?_⟩
      intro other leads'
      exact eq_of_follow leads' leads
    · intro unique
      obtain ⟨way, leads, -⟩ := unique
      exact lt_size_of_follow t.size_pos leads
  ordered := lt_iff_wayBefore
  root := t.parent_eq_none_iff
  smaller := t.parent_lt
  ascending := t.childrenOf_pairwise
  converse := t.mem_childrenOf_iff

theorem walksInOrder {i : Nat} (inside : i < t.size) : t.WalksInOrder i where
  block := t.exists_descendants_eq inside
  walked := t.descendants_of_steps i
  descending := t.ancestors_pairwise i
  topmost := t.getLast?_ancestors inside

/-- Every tree is numbered in document order, every walk keeps to that order, and what a walk up
meets is just what meets the node on its walk down. -/
theorem document_order :
    t.NumbersInOrder ∧ (∀ i < t.size, t.WalksInOrder i) ∧
      ∀ i j, j ∈ t.ancestors i ↔ i ∈ t.descendants j := by
  refine ⟨t.numbersInOrder, ?_, ?_⟩
  · intro i inside
    exact t.walksInOrder inside
  · intro i j
    rw [mem_ancestors_iff, mem_descendants_iff]
    rfl

end PromptAudit.Tree
