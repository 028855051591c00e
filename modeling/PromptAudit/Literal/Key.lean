import PromptAudit.Wording.Basic

namespace PromptAudit.Tree

variable (t : Tree)

def withoutColons (s : Text) : Text := s.dropWhile (· = ':')

/-- The text between two equal quotes. -/
def unquoted (s : Text) : Option Text :=
  if 2 ≤ s.length && s.head? = s.getLast? && s.head?.any fun c => c = '\x22' || c = '\x27'
  then some s.tail.dropLast else none

/-- The key of a hash pair as far as the source shows it: `key:`, `:key =>`, `"key" =>`. -/
def pairKey (pair : Nat) : Option Text :=
  if t.kind pair = .pair then
    (t.field pair "key").bind fun key =>
      if t.type key = "hash_key_symbol" then some (t.text key)
      else if t.type key = "simple_symbol" then some (withoutColons (t.text key))
      else if t.type key = "string" then
        match t.wording key with
        | some w => if w.hasLive then none else some w.fixedText
        | none => unquoted (withoutColons (t.text key))
      else if t.type key = "delimited_symbol" then unquoted (withoutColons (t.text key))
      else none
  else none

def pairValue (pair : Nat) : Option Nat :=
  if t.kind pair = .pair then t.field pair "value" else none

def isSystemPair (i : Nat) : Bool := t.kind i = .pair && t.pairKey i = some "system".toList

end PromptAudit.Tree
