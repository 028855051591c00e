import PromptAudit.Tree.Forest
import PromptAudit.Text.Decode

namespace PromptAudit

/-- A source unit as its parser understood it: the bytes, the root node, the row of its children
and the parser's word on whether all of it was understood. Nodes are known by their number in
document order; a number outside the tree names an empty node. -/
structure Tree where
  source : Bytes
  root : Tree.Shape
  children : Tree.Forest
  broken : Bool
  entries : Array Tree.Entry := (Tree.Forest.more root children .none).entries none 0 |>.toArray
  entries_eq : entries = ((Tree.Forest.more root children .none).entries none 0).toArray := by rfl

namespace Tree

/-- What lies outside the tree. -/
def nowhere : Entry := ⟨⟨"", 0, 0, none, false⟩, none, []⟩

variable (t : Tree)

def size : Nat := t.entries.size

def nodes : List Nat := List.range t.size

def entry (i : Nat) : Entry := t.entries.getD i nowhere

def type (i : Nat) : String := (t.entry i).shape.type

def start (i : Nat) : Nat := (t.entry i).shape.start

def stop (i : Nat) : Nat := (t.entry i).shape.stop

def parent (i : Nat) : Option Nat := (t.entry i).parent

def childrenOf (i : Nat) : List Nat := (t.entry i).children

/-- The first child that hangs under a field of the grammar. -/
def field (i : Nat) (name : String) : Option Nat :=
  (t.childrenOf i).find? fun c => (t.entry c).shape.field = some name

theorem bounds_of_mem_childrenOf {i c : Nat} (h : c ∈ t.childrenOf i) : i < c ∧ c < t.size := by
  unfold childrenOf entry at h
  by_cases hi : i < t.entries.size
  · have he : ((Forest.more t.root t.children .none).entries none 0)[i]? = some t.entries[i] := by
      have := t.entries_eq
      simp only [← List.getElem?_toArray, ← this, Array.getElem?_eq_getElem hi]
    rw [Array.getD_eq_getD_getElem?, Array.getElem?_eq_getElem hi] at h
    have b := Forest.children_bounds _ _ _ _ _ _ he h
    rw [← Forest.length_entries _ none 0, ← List.size_toArray, ← t.entries_eq] at b
    exact ⟨by omega, by simpa [size] using b.2⟩
  · rw [Array.getD_eq_getD_getElem?, Array.getElem?_eq_none (by omega)] at h
    simp [nowhere] at h

theorem parent_lt {i p : Nat} (h : t.parent i = some p) : p < i := by
  unfold parent entry at h
  by_cases hi : i < t.entries.size
  · have he : ((Forest.more t.root t.children .none).entries none 0)[i]? = some t.entries[i] := by
      have := t.entries_eq
      simp only [← List.getElem?_toArray, ← this, Array.getElem?_eq_getElem hi]
    rw [Array.getD_eq_getD_getElem?, Array.getElem?_eq_getElem hi] at h
    have b := Forest.parent_bounds _ _ _ _ _ _ (by simp) he h
    omega
  · rw [Array.getD_eq_getD_getElem?, Array.getElem?_eq_none (by omega)] at h
    simp [nowhere] at h

/-- Enclosing nodes, nearest first. -/
def ancestors (i : Nat) : List Nat :=
  match _h : t.parent i with
  | none => []
  | some p => p :: ancestors p
termination_by i
decreasing_by exact t.parent_lt (by assumption)

/-- Nodes inside a node in document order. The walk looks into a node only where `enters`
allows it. -/
def inside (enters : Nat → Bool) (i : Nat) : List Nat :=
  (t.childrenOf i).attach.flatMap fun ⟨c, _⟩ => c :: if enters c then inside enters c else []
termination_by t.size - i
decreasing_by
  have := t.bounds_of_mem_childrenOf (by assumption)
  omega

def descendants (i : Nat) : List Nat := t.inside (fun _ => true) i

/-- The bytes between two offsets, as far as the source has them. -/
def bytesBetween (start stop : Nat) : Bytes := (t.source.drop start).take (stop - start)

def text (i : Nat) : Text := Text.decode (t.bytesBetween (t.start i) (t.stop i))

end Tree

end PromptAudit
