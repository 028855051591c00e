import PromptAudit.Tree.Basic

namespace PromptAudit

/-- What a node is to the rules. -/
inductive Kind
  | literal
  | composite
  | call
  | pair
  | collection
  | definition
  | other
  deriving DecidableEq, Repr

namespace Kind

def all : List Kind := [literal, composite, call, pair, collection, definition, other]

def name : Kind → Text
  | literal => "literal_string".toList
  | composite => "composite_string".toList
  | call => "call".toList
  | pair => "pair".toList
  | collection => "collection".toList
  | definition => "definition".toList
  | other => "other".toList

/-- Literal and composite strings. -/
def isString (k : Kind) : Bool := k = literal || k = composite

end Kind

namespace Tree

variable (t : Tree)

def definitionTypes : List String :=
  ["class", "module", "method", "singleton_method", "singleton_class"]

def collectionTypes : List String := ["hash", "array", "argument_list"]

/-- A string inside a chain of strings belongs to the chain. -/
def kind (i : Nat) : Kind :=
  if t.type i = "string" then
    if (t.parent i).any (t.type · = "chained_string") then .other
    else if (t.childrenOf i).any (t.type · = "interpolation") then .composite
    else .literal
  else if t.type i = "chained_string" || t.type i = "heredoc_beginning" then .composite
  else if t.type i = "call" then .call
  else if t.type i = "pair" then .pair
  else if collectionTypes.contains (t.type i) then .collection
  else if definitionTypes.contains (t.type i) then .definition
  else .other

end Tree

end PromptAudit
