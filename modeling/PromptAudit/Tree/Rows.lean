import PromptAudit.Tree.Basic

namespace PromptAudit.Tree

/-- One line of a flat listing of nodes in document order: a node and the number of its parent,
which the root has not. -/
structure Row where
  shape : Shape
  parent : Option Nat

/-- How deep each node lies, from the depths of the nodes before it. -/
def depths (known : Array Nat) : List Row → Array Nat
  | [] => known
  | row :: rest =>
      depths (known.push (match row.parent with
        | none => 0
        | some p => known.getD p 0 + 1)) rest

/-- A tree with the depth of its root. -/
structure Planted where
  depth : Nat
  shape : Shape
  children : Forest

/-- The trees of one row. -/
def Forest.ofPlanted : List Planted → Forest
  | [] => .none
  | p :: rest => .more p.shape p.children (ofPlanted rest)

/-- Puts a node in front of the trees that follow it; those that lie deeper are below it. -/
def plant (node : Shape × Nat) (after : List Planted) : List Planted :=
  ⟨node.2, node.1, .ofPlanted (after.takeWhile fun p => node.2 < p.depth)⟩ ::
    after.dropWhile fun p => node.2 < p.depth

/-- A unit of which nothing is known but its bytes. -/
def bare (source : Bytes) (broken : Bool) : Tree :=
  { source, root := ⟨"program", 0, source.length, none, false⟩, children := .none, broken }

/-- A unit from the flat listing of its nodes. -/
def ofRows (source : Bytes) (rows : List Row) (broken : Bool) : Tree :=
  match ((rows.map Row.shape).zip (depths #[] rows).toList).foldr plant [] with
  | [] => bare source broken
  | top :: _ => { source, root := top.shape, children := top.children, broken }

end PromptAudit.Tree
