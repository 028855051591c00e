import PromptAudit.Number.Double
import PromptAudit.Text.Basic

namespace PromptAudit.Number.Double

/-- A multiple of a power of ten that reads back as the number, nearest to it among the
multiples of that power. Everything is measured in half of a least unit. -/
def onGrid (d : Double) (exponent : Int) : Option Nat :=
  let up := Nat.pow 10 (-exponent).toNat
  let step := Nat.pow 10 exponent.toNat * (2 * unit)
  let value := 2 * d.units * up
  let low := (d.units + { d with magnitude := d.magnitude - 1 : Double }.units) * up
  let high := (d.units + { d with magnitude := d.magnitude + 1 : Double }.units) * up
  let inside := fun c => if d.magnitude % 2 = 0 then low ≤ c * step && c * step ≤ high
    else low < c * step && c * step < high
  let c := value / step
  let nearer := if 2 * (value % step) < step ∨ (2 * (value % step) = step ∧ c % 2 = 0) then [c, c + 1]
    else [c + 1, c]
  nearer.find? inside

/-- The coarsest grid with a hit gives the fewest digits. -/
def shortestFrom (d : Double) : Nat → Nat × Int
  | 0 => (0, 0)
  | k + 1 =>
      let exponent : Int := (k : Int) - 345
      match d.onGrid exponent with
      | some c => (c, exponent)
      | none => d.shortestFrom k

/-- Digits of a positive finite number and the place of the point counted from their start. -/
def shortestDigits (d : Double) : Text × Int :=
  let (c, exponent) := d.shortestFrom 655
  let digits := Text.ofNat c
  (digits, digits.length + exponent)

/-- The fewest digits that read back, positional from four places below the point up to sixteen
above it. -/
def shortest (d : Double) : Text :=
  let sign := if d.negative && !d.isNaN then ['-'] else []
  if d.isNaN then "nan".toList
  else if d.magnitude = infinite then sign ++ "inf".toList
  else if d.magnitude = 0 then sign ++ "0.0".toList
  else
    let (digits, point) := d.shortestDigits
    sign ++
      if point ≤ -4 ∨ 16 < point then
        let power := point - 1
        let shown := Text.ofNat power.natAbs
        let mantissa := match digits with
          | [] => []
          | [c] => [c]
          | c :: r => c :: '.' :: r
        mantissa ++ ['e', if power < 0 then '-' else '+'] ++
          List.replicate (2 - shown.length) '0' ++ shown
      else if point ≤ 0 then
        "0.".toList ++ List.replicate (-point).toNat '0' ++ digits
      else
        let whole := point.toNat
        digits.take whole ++ List.replicate (whole - digits.length) '0' ++ ['.'] ++
          if digits.length ≤ whole then ['0'] else digits.drop whole

end PromptAudit.Number.Double
