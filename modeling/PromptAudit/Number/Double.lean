namespace PromptAudit.Number

/-- A binary64 number by its sign and the remaining 63 bits. Below `infinite` the bits order
absolute values, so numbers are compared without decoding them. -/
structure Double where
  negative : Bool
  magnitude : Nat
  deriving DecidableEq, Repr

/-- Numerator over denominator, rounded to the nearest integer and from a half to the even one. -/
def roundHalfEven (num den : Nat) : Nat :=
  if 2 * (num % den) < den ∨ (2 * (num % den) = den ∧ num / den % 2 = 0) then num / den
  else num / den + 1

namespace Double

def infinite : Nat := 2047 * Nat.pow 2 52

/-- The bits of the quiet number that stands for no number. -/
def invalid : Nat := infinite + Nat.pow 2 51

def isNaN (d : Double) : Bool := infinite < d.magnitude

def neg (d : Double) : Double := ⟨!d.negative, d.magnitude⟩

/-- Signed magnitude; both zeros have the same key. -/
def key (d : Double) : Int := if d.negative then -(d.magnitude : Int) else d.magnitude

/-- No comparison holds of what is no number. -/
def le (a b : Double) : Bool := !a.isNaN && !b.isNaN && a.key ≤ b.key

/-- Integer significand of a finite number, a multiple of `2 ^ scale` units. -/
def significand (d : Double) : Nat :=
  if d.magnitude / Nat.pow 2 52 = 0 then d.magnitude
  else d.magnitude % Nat.pow 2 52 + Nat.pow 2 52

def scale (d : Double) : Nat := d.magnitude / Nat.pow 2 52 - 1

/-- How many least units make one. -/
def unit : Nat := Nat.pow 2 1074

/-- The absolute value of a finite number in least units. -/
def units (d : Double) : Nat := d.significand * Nat.pow 2 d.scale

/-- The bits of the nonnegative number nearest to a quotient. Dropping `s` low places of the
quotient in least units leaves a significand of at most 53 places, and a carry out of it lands in
the exponent. -/
def nearest (num den : Nat) : Nat :=
  let s := (num * unit / den).log2 - 52
  min infinite (s * Nat.pow 2 52 + roundHalfEven (num * unit) (den * Nat.pow 2 s))

def ofNat (n : Nat) : Double := ⟨false, nearest n 1⟩

/-- The 64 bits as a number. -/
def toBits (d : Double) : Nat := (if d.negative then Nat.pow 2 63 else 0) + d.magnitude

end Double

end PromptAudit.Number
