import PromptAudit.Audit.Run
import PromptAudit.Grammar
import PromptAudit.Ignore.Pattern
import PromptAudit.Tree.Rows

namespace PromptAudit.Audit

/-- A disk and the trees of the units on it, with what reads ignore files and what loads encodings.
Equal bytes have one tree, the one that was put there last. -/
structure Workspace where
  disk : Disk
  units : List (Bytes × Tree)
  reader : Discovery.IgnoreReader := Ignore.reader
  load : Encoder.Loader := Encoder.load

namespace Workspace

def empty : Workspace := { disk := Disk.empty, units := [] }

def put (w : Workspace) (path : Path) (item : Item) : Workspace :=
  { w with disk := w.disk.put path item }

def putUnit (w : Workspace) (path : Path) (unit : Tree) : Workspace :=
  { w.put path (.file unit.source) with units := (unit.source, unit) :: w.units }

/-- Without a grammar no unit has a tree. -/
def parser (w : Workspace) (g : Grammars) : Parser := fun bytes =>
  match g.problem? Grammars.unitLanguage with
  | some problem => .error problem
  | none => .ok ((w.units.lookup bytes).getD (Tree.bare bytes false))

end Workspace

end PromptAudit.Audit
