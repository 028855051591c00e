import PromptAudit.Text.Basic

namespace PromptAudit.Ignore

/-- One mark of a pattern for a single name. -/
inductive Mark
  | exactly (c : Char)
  | one
  | many
  | among (negated : Bool) (ranges : List (Char × Char))
  deriving DecidableEq, Repr

/-- The ranges of a bracket expression. A dash between two characters makes a range of them. -/
def ranges : Text → List (Char × Char)
  | a :: '-' :: b :: r => (a, b) :: ranges r
  | a :: r => (a, a) :: ranges r
  | [] => []

/-- The inside of a bracket expression and what follows it, if it is closed. A bracket that
stands first is a member. -/
def bracket : Text → Option (Text × Text)
  | [] => none
  | c :: r =>
      if r.contains ']' then some (c :: r.takeWhile (· ≠ ']'), (r.dropWhile (· ≠ ']')).tail)
      else none

/-- A closed bracket expression is one mark; an open one stands for itself, like any character
after a backslash. `pending` characters belong to an expression that has been read. There are no
marks for a backslash at the end, nor for a range that goes backwards. -/
def marks? : Nat → Text → Option (List Mark)
  | _, [] => some []
  | pending + 1, _ :: r => marks? pending r
  | 0, ['\\'] => none
  | 0, '\\' :: c :: r => (marks? 0 r).map (.exactly c :: ·)
  | 0, '*' :: r => (marks? 0 r).map (.many :: ·)
  | 0, '?' :: r => (marks? 0 r).map (.one :: ·)
  | 0, '[' :: r =>
      let negated := r.head? = some '!' || r.head? = some '^'
      let body := if negated then r.tail else r
      match (if body.head? = some ']' then bracket body
        else if body.contains ']' then
          some (body.takeWhile (· ≠ ']'), (body.dropWhile (· ≠ ']')).tail) else none) with
      | some (members, rest) =>
          if (ranges members).any fun r => r.2 < r.1 then none
          else (marks? (r.length - rest.length) r).map (.among negated (ranges members) :: ·)
      | none => (marks? 0 r).map (.exactly '[' :: ·)
  | 0, c :: r => (marks? 0 r).map (.exactly c :: ·)

/-- Does a mark accept a character? Only a literal slash accepts a slash. -/
def Mark.accepts : Mark → Char → Bool
  | exactly a, c => a = c
  | one, c => c ≠ '/'
  | many, c => c ≠ '/'
  | among negated rs, c => c ≠ '/' && (rs.any fun r => r.1 ≤ c && c ≤ r.2) ≠ negated

/-- Does the whole name fit? -/
def fits : List Mark → Text → Bool
  | [], name => name.isEmpty
  | .many :: ms, [] => fits ms []
  | .many :: ms, c :: r => fits ms (c :: r) || (Mark.many.accepts c && fits (.many :: ms) r)
  | _ :: _, [] => false
  | m :: ms, c :: r => m.accepts c && fits ms r
termination_by ms name => (ms.length, name.length)

end PromptAudit.Ignore
