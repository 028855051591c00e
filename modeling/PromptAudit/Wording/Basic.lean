import PromptAudit.Wording.Heredoc
import PromptAudit.Wording.Escape
import PromptAudit.Wording.Tag
import PromptAudit.Tree.Kind
import PromptAudit.Tree.Heredoc
import PromptAudit.Tree.Position

namespace PromptAudit.Tree

open Wording

variable (t : Tree)

/-- The value of a content child of a string. -/
def partText (i : Nat) : Text :=
  if t.type i = "escape_sequence" then readEscape (t.text i) else t.text i

def isContent (i : Nat) : Bool :=
  t.type i = "string_content" || t.type i = "heredoc_content" || t.type i = "escape_sequence"

/-- What one child adds to a string. -/
def stringPart (i : Nat) : Wording :=
  if t.type i = "interpolation" then [.live (t.text i)]
  else if t.isContent i then [.fixed (t.partText i)]
  else []

/-- What one child adds to a heredoc body. -/
def heredocPart (i : Nat) : List Piece :=
  if t.type i = "interpolation" then [.live (t.text i)]
  else if t.type i = "heredoc_content" then [.verbatim (t.text i)]
  else if t.type i = "escape_sequence" then [.decoded (t.partText i)]
  else []

def heredocWording (opening : Nat) : Wording :=
  match t.heredocBody opening with
  | none => []
  | some body =>
      ofHeredoc ("<<~".toList.isPrefixOf (t.text opening)) ((t.childrenOf body).flatMap t.heredocPart)

def stringWording (i : Nat) : Wording := (t.childrenOf i).flatMap t.stringPart

/-- The strings of a chain follow each other. -/
def chainWording (i : Nat) : Wording :=
  ((t.childrenOf i).filter (t.type · = "string")).flatMap t.stringWording

/-- All that a string node says, even when that is nothing. -/
def rawWording (i : Nat) : Wording :=
  match t.kind i with
  | .literal => [.fixed (((t.childrenOf i).filter t.isContent).flatMap t.partText)]
  | .composite =>
      if t.type i = "chained_string" then t.chainWording i
      else if t.type i = "heredoc_beginning" then t.heredocWording i
      else t.stringWording i
  | _ => []

/-- What a string node says. A blank string without interpolation says nothing. -/
def wording (i : Nat) : Option Wording :=
  if (t.kind i).isString then
    let w := t.rawWording i
    if !w.hasLive && Text.blank w.fixedText then none else some w
  else none

def fixedText (i : Nat) : Option Text := (t.wording i).map Wording.fixedText

/-- The tag of a heredoc opening. -/
def heredocTag (i : Nat) : Option Text :=
  if t.type i = "heredoc_beginning" then (tags (t.text i)).head? else none

/-- The node's own tag, or one that opens on the line where the node starts. -/
def isTagged (i : Nat) (tag : Text) : Bool :=
  t.heredocTag i = some tag || (tags (t.lineAt (t.start i))).contains tag

end PromptAudit.Tree
