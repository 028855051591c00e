import PromptAudit.Proofs.Tree.Alike
import PromptAudit.Proofs.Tree.Line

namespace PromptAudit.Tree

/-- A node when so many bytes stand before its unit. -/
def Shape.moved (bytes : Nat) (s : Shape) : Shape :=
  { s with start := bytes + s.start, stop := bytes + s.stop }

def Entry.moved (bytes : Nat) (e : Entry) : Entry := { e with shape := e.shape.moved bytes }

namespace Forest

def moved (bytes : Nat) : Forest → Forest
  | none => none
  | more s c r => more (s.moved bytes) (c.moved bytes) (r.moved bytes)

variable (bytes : Nat) (f : Forest)

theorem size_moved : (f.moved bytes).size = f.size := by
  induction f with
  | none => rfl
  | more s c r ihc ihr => simp only [moved, size, ihc, ihr]

theorem roots_moved (first : Nat) : (f.moved bytes).roots first = f.roots first := by
  induction f generalizing first with
  | none => rfl
  | more s c r _ ihr => simp only [moved, roots, size_moved, ihr]

theorem entries_moved (parent : Option Nat) (first : Nat) :
    (f.moved bytes).entries parent first = (f.entries parent first).map (Entry.moved bytes) := by
  induction f generalizing parent first with
  | none => rfl
  | more s c r ihc ihr =>
    simp only [moved, entries, roots_moved, size_moved, ihc, ihr, List.map_cons, List.map_append,
      Entry.moved]

end Forest

/-- A unit with some bytes before it. -/
def behind (before : Bytes) (t : Tree) : Tree where
  source := before ++ t.source
  root := t.root.moved before.length
  children := t.children.moved before.length
  broken := t.broken

variable (t : Tree) (before : Bytes)

theorem entries_behind :
    (t.behind before).entries = t.entries.map (Entry.moved before.length) := by
  rw [t.entries_eq, List.map_toArray]
  exact congrArg List.toArray
    ((Forest.more t.root t.children .none).entries_moved before.length none 0)

theorem size_behind : (t.behind before).size = t.size := by
  rw [size, entries_behind, Array.size_map, size]

theorem entry_behind {i : Nat} (hi : i < t.size) :
    (t.behind before).entry i = (t.entry i).moved before.length := by
  simp only [entry, entries_behind, Array.getD_eq_getD_getElem?, Array.getElem?_map,
    Array.getElem?_eq_getElem hi, Option.map_some, Option.getD_some]

theorem start_behind {i : Nat} (hi : i < t.size) :
    (t.behind before).start i = before.length + t.start i := by
  rw [start, t.entry_behind before hi]
  rfl

theorem stop_behind {i : Nat} (hi : i < t.size) :
    (t.behind before).stop i = before.length + t.stop i := by
  rw [stop, t.entry_behind before hi]
  rfl

/-- Nothing but its offsets tells where a node stands. -/
theorem entry_behind_eq (i : Nat) :
    ((t.behind before).entry i).parent = (t.entry i).parent ∧
      ((t.behind before).entry i).children = (t.entry i).children ∧
      ((t.behind before).entry i).shape.type = (t.entry i).shape.type ∧
      ((t.behind before).entry i).shape.field = (t.entry i).shape.field := by
  rcases Nat.lt_or_ge i t.size with hi | outside
  · rw [t.entry_behind before hi]
    exact ⟨rfl, rfl, rfl, rfl⟩
  · have beyond : (t.behind before).size ≤ i := by rwa [size_behind]
    rw [entry_of_size_le outside, entry_of_size_le beyond]
    exact ⟨rfl, rfl, rfl, rfl⟩

theorem text_behind : (t.behind before).text = t.text := by
  funext i
  rcases Nat.lt_or_ge i t.size with hi | outside
  · have length : before.length + t.stop i - (before.length + t.start i) = t.stop i - t.start i := by
      omega
    rw [text, text, bytesBetween, bytesBetween, t.start_behind before hi, t.stop_behind before hi,
      length, behind, List.drop_length_add_append]
  · have beyond : (t.behind before).size ≤ i := by rwa [size_behind]
    simp only [text, bytesBetween, start, stop, entry_of_size_le outside,
      entry_of_size_le beyond, nowhere, Nat.sub_self, List.take_zero]

theorem row_behind (offset : Nat) :
    (t.behind before).row (before.length + offset) = before.count lineFeed + t.row offset := by
  rw [row, behind, List.take_length_add_append, List.count_append, row]

section Lines

variable {before} (ends : before.getLast? = some lineFeed)

include ends

theorem HoldsLine.behind {offset : Nat} {front line after : Bytes}
    (h : HoldsLine t.source offset front line after) :
    HoldsLine (t.behind before).source (before.length + offset) (before ++ front) line after where
  parts := by rw [Tree.behind, h.parts, List.append_assoc]
  whole := h.whole
  opened := by
    rw [List.getLast?_append]
    intro b last
    cases held : front.getLast? with
    | none =>
      rw [held, Option.none_or, ends] at last
      exact (Option.mem_some.mp last).symm
    | some c =>
      rw [held, Option.some_or] at last
      exact h.opened b (held ▸ last)
  closed := h.closed
  reached := by
    rw [List.length_append]
    exact Nat.add_le_add_left h.reached _
  held := by
    rw [List.length_append, Nat.add_assoc]
    exact h.held.imp_left fun within => Nat.add_le_add_left within _

theorem lineStart_behind (offset : Nat) :
    (t.behind before).lineStart (before.length + offset) = before.length + t.lineStart offset := by
  obtain ⟨front, after, holds⟩ := t.holdsLine_lineBytes offset
  have moved := holds.behind t ends
  rw [moved.lineStart_eq, holds.lineStart_eq, List.length_append]

theorem column_behind (offset : Nat) :
    (t.behind before).column (before.length + offset) = t.column offset := by
  rw [column, t.lineStart_behind ends, column]
  omega

theorem lineAt_behind (offset : Nat) :
    (t.behind before).lineAt (before.length + offset) = t.lineAt offset := by
  obtain ⟨front, after, holds⟩ := t.holdsLine_lineBytes offset
  have moved := holds.behind t ends
  rw [lineAt, ← moved.eq_lineBytes, lineAt]

end Lines

theorem byStart_behind (type : String) : (t.behind before).byStart type = t.byStart type := by
  have types : (t.behind before).type = t.type := funext fun i => (t.entry_behind_eq before i).2.2.1
  have listed : (t.behind before).nodes = t.nodes := by rw [nodes, size_behind, nodes]
  let starting := t.nodes.filter (t.type · = type)
  have same : ∀ i ∈ starting, ∀ j ∈ starting, decide (t.start i ≤ t.start j) =
      decide ((t.behind before).start (id i) ≤ (t.behind before).start (id j)) := by
    intro i hi j hj
    have low := List.mem_range.mp (List.mem_filter.mp hi).1
    have high := List.mem_range.mp (List.mem_filter.mp hj).1
    rw [id, id, t.start_behind before low, t.start_behind before high, decide_eq_decide]
    omega
  have sorted : (starting.mergeSort fun i j => t.start i ≤ t.start j).map id =
      (starting.map id).mergeSort fun i j => (t.behind before).start i ≤ (t.behind before).start j :=
    List.map_mergeSort same
  rw [List.map_id, List.map_id] at sorted
  rw [byStart, byStart, listed, types]
  exact sorted.symm

theorem heredocBody_behind : (t.behind before).heredocBody = t.heredocBody := by
  funext opening
  rw [heredocBody, heredocBody, heredocs, heredocs, byStart_behind, byStart_behind]

variable {before} in
/-- Whole lines before a unit change nothing that a rule reads. -/
theorem alike_behind (ends : before.getLast? = some lineFeed) : t.Alike (t.behind before) where
  size := (t.size_behind before).symm
  type := funext fun i => (t.entry_behind_eq before i).2.2.1.symm
  held i := (t.entry_behind_eq before i).2.2.2.symm
  text := (t.text_behind before).symm
  parent := funext fun i => (t.entry_behind_eq before i).1.symm
  children := funext fun i => (t.entry_behind_eq before i).2.1.symm
  body := (t.heredocBody_behind before).symm
  order hi hj := by
    rw [t.start_behind before hi, t.start_behind before hj]
    omega
  line hi := by rw [t.start_behind before hi, t.lineAt_behind ends]

end PromptAudit.Tree
