import PromptAudit.Tree.Basic
import PromptAudit.Number.Reading

namespace PromptAudit

/-- What a number literal is worth as a binary64 number. An integer may be too large to have a
nearest one. -/
inductive Worth
  | number (value : Number.Double)
  | none
  | tooLarge
  deriving DecidableEq, Repr

namespace Worth

def ofInt (n : Int) : Worth :=
  let bits := Number.Double.nearest n.natAbs 1
  if bits < Number.Double.infinite then .number ⟨n < 0, bits⟩ else .tooLarge

def neg : Worth → Worth
  | .number v => .number v.neg
  | w => w

/-- An integer in the prefixed form, or an octal one that is marked by its leading zero only. -/
def ofInteger (text : Text) : Worth :=
  match Number.signed? Number.prefixedValue? text with
  | some n => ofInt n
  | Option.none => match Number.signed? Number.octalValue? text with
    | some n => ofInt n
    | Option.none => .none

def ofFloat (text : Text) : Worth :=
  match Number.double? text with
  | some v => .number v
  | Option.none => .none

end Worth

namespace Tree

variable (t : Tree)

theorem mem_childrenOf_of_field {i c : Nat} {name : String} (h : t.field i name = some c) :
    c ∈ t.childrenOf i := List.mem_of_find?_eq_some h

/-- The worth of a literal. Underscores between digits do not count, and a minus sign turns the
worth of what follows. -/
def worth (i : Nat) : Worth :=
  if t.type i = "unary" then
    match _h : t.field i "operand" with
    | none => .none
    | some operand => if (t.text i).head? = some '-' then (worth operand).neg else .none
  else
    let digits := (t.text i).filter (· != '_')
    if t.type i = "float" then Worth.ofFloat digits
    else if t.type i = "integer" then Worth.ofInteger digits
    else .none
termination_by t.size - i
decreasing_by
  have := t.bounds_of_mem_childrenOf (t.mem_childrenOf_of_field (by assumption))
  omega

end Tree

end PromptAudit
