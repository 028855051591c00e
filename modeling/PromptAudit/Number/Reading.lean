import PromptAudit.Number.Double
import PromptAudit.Text.Digit

namespace PromptAudit.Number

open Text

/-- White space that may surround a number: the information separators are not part of it. -/
def isMargin (c : Char) : Bool := isBlank c && !within [(0x1C, 0x1F)] c

/-- A number without its margins, with the digits of all scripts in one form. -/
def bare (t : Text) : Text :=
  let t := plainDigits t
  ((t.dropWhile isMargin).reverse.dropWhile isMargin).reverse

def splitSign : Text → Bool × Text
  | '-' :: r => (true, r)
  | '+' :: r => (false, r)
  | r => (false, r)

def digitValue (c : Char) : Nat :=
  if c.isDigit then c.toNat - 48
  else if 'a' ≤ c && c ≤ 'z' then c.toNat - 87
  else if 'A' ≤ c && c ≤ 'Z' then c.toNat - 55
  else 36

/-- Positional value of a nonempty run of digits. -/
def digitsValue? (base : Nat) (t : Text) : Option Nat :=
  if !t.isEmpty && t.all (digitValue · < base) then
    some (t.foldl (fun n c => n * base + digitValue c) 0)
  else none

/-- Decimal digits are read up to this number of them. -/
def digitLimit : Nat := 4300

def decimalValue? (t : Text) : Option Nat :=
  if t.length ≤ digitLimit then digitsValue? 10 t else none

/-- A literal whose prefix names its base. Without a prefix it is decimal, and then a leading
zero is allowed for zero only. -/
def prefixedValue? : Text → Option Nat
  | '0' :: 'x' :: r => digitsValue? 16 r
  | '0' :: 'X' :: r => digitsValue? 16 r
  | '0' :: 'o' :: r => digitsValue? 8 r
  | '0' :: 'O' :: r => digitsValue? 8 r
  | '0' :: 'b' :: r => digitsValue? 2 r
  | '0' :: 'B' :: r => digitsValue? 2 r
  | '0' :: r => (decimalValue? ('0' :: r)).filter (· = 0)
  | r => decimalValue? r

def octalValue? : Text → Option Nat
  | '0' :: 'o' :: r => digitsValue? 8 r
  | '0' :: 'O' :: r => digitsValue? 8 r
  | r => digitsValue? 8 r

/-- A signed integer whose digits are read by `value?`. -/
def signed? (value? : Text → Option Nat) (t : Text) : Option Int :=
  let (negative, digits) := splitSign (bare t)
  (value? digits).map fun n => if negative then -(n : Int) else n

def decimalInt? (t : Text) : Option Int := signed? decimalValue? t

/-- The number nearest to `digits * 10 ^ exponent`. Far outside the range the exact power of ten
is not needed. -/
def scaled (digits : Nat) (exponent : Int) : Nat :=
  let size : Int := (ofNat digits).length + exponent
  if digits = 0 ∨ size < -330 then 0
  else if 310 < size then Double.infinite
  else Double.nearest (digits * Nat.pow 10 exponent.toNat) (Nat.pow 10 (-exponent).toNat)

/-- Digits with an optional point among them. -/
def significand? (t : Text) : Option (Text × Nat) :=
  match t.splitAt (t.takeWhile (· != '.')).length with
  | (whole, []) => if whole.isEmpty then none else some (whole, 0)
  | (whole, _ :: part) =>
      if whole.isEmpty && part.isEmpty then none else some (whole ++ part, part.length)

/-- The bits of an unsigned decimal with an optional power of ten. -/
def decimalBits? (t : Text) : Option Nat :=
  let isPower := fun c => c == 'e' || c == 'E'
  let mantissa := t.takeWhile (!isPower ·)
  let power? : Option Int := match t.dropWhile (!isPower ·) with
    | [] => some 0
    | _ :: r =>
        let (negative, digits) := splitSign r
        (digitsValue? 10 digits).map fun n => if negative then -(n : Int) else n
  match significand? mantissa, power? with
  | some (digits, places), some power =>
      (digitsValue? 10 digits).map fun n => scaled n (power - places)
  | _, _ => none

/-- A number with a sign, or a word for what is no finite number. -/
def signedDouble? (t : Text) : Option Double :=
  let (negative, body) := splitSign t
  let word := body.map Char.toLower
  if word = "inf".toList || word = "infinity".toList then some ⟨negative, Double.infinite⟩
  else if word = "nan".toList then some ⟨negative, Double.invalid⟩
  else (decimalBits? body).map (⟨negative, ·⟩)

/-- A binary64 number from its text, in the digits of any script. -/
def double? (t : Text) : Option Double := signedDouble? (bare t)

end PromptAudit.Number
