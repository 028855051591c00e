import PromptAudit.Literal.Numeral
import PromptAudit.Value

namespace PromptAudit.Value

/-- A text without its margins, for it may hold a number. -/
def withoutMargin (t : Text) : Text :=
  ((t.dropWhile Number.isMargin).reverse.dropWhile Number.isMargin).reverse

/-- Single underscores between other characters only group them. -/
def ungrouped : Text → Option Text
  | [] => some []
  | [c] => if c = '_' then none else some [c]
  | a :: b :: r =>
      if a = '_' then none
      else if b = '_' then (if r.head?.any (· ≠ '_') then (ungrouped r).map (a :: ·) else none)
      else (ungrouped (b :: r)).map (a :: ·)

/-- A decimal integer in a text. A point may follow it with zeros only. -/
def textInt? (t : Text) : Option Int :=
  let (negative, body) := Number.splitSign (withoutMargin t)
  let whole := body.takeWhile (· ≠ '.')
  if t.length ≤ Number.digitLimit && (body.dropWhile (· ≠ '.')).tail.all (· = '0') then
    ((ungrouped whole).bind (Number.digitsValue? 10)).map fun n => if negative then -(n : Int) else n
  else none

/-- The integer in a value: a whole number, however it is spelled. -/
def int? : Value → Option Int
  | whole n => some n
  | flag b => some (if b then 1 else 0)
  | text t => textInt? t
  | real d =>
      if d.magnitude < Number.Double.infinite && d.units % Number.Double.unit = 0 &&
          d.units / Number.Double.unit < Nat.pow 2 63 then
        let n := d.units / Number.Double.unit
        some (if d.negative then -(n : Int) else n)
      else none
  | _ => none

/-- The binary64 number in a value. -/
def double? : Value → Option Number.Double
  | real d => some d
  | whole n => match Worth.ofInt n with
    | .number d => some d
    | _ => none
  | flag b => some (Number.Double.ofNat (if b then 1 else 0))
  | text t =>
      let body := withoutMargin t
      match Number.signedDouble? body with
      | some d => some d
      | none => (ungrouped body).bind Number.signedDouble?
  | _ => none

def text? : Value → Option Text
  | text t => some t
  | _ => none

/-- A list of texts and nothing else. -/
def texts? : Value → Option (List Text)
  | list items => items.mapM text?
  | _ => none

end PromptAudit.Value
