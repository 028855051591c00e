import PromptAudit.Text.Basic

namespace PromptAudit.Text

/-- What an unfinished character still needs: the value of the bytes so far, how many bytes are
missing, and the range of the next one. -/
inductive Pending
  | none
  | more (value missing low high : Nat)
  deriving DecidableEq, Repr

def replacement : Char := '\uFFFD'

/-- An unfinished character is written as one replacement character. -/
def Pending.flush : Pending → Text
  | .none => []
  | .more .. => [replacement]

/-- The first byte of a character. The ranges leave out overlong forms, surrogates and values
beyond the last code point. -/
def opening (b : Nat) : Text × Pending :=
  if b < 0x80 then ([Char.ofNat b], .none)
  else if 0xC2 ≤ b ∧ b ≤ 0xDF then ([], .more (b - 0xC0) 1 0x80 0xBF)
  else if b = 0xE0 then ([], .more 0 2 0xA0 0xBF)
  else if b = 0xED then ([], .more 0x0D 2 0x80 0x9F)
  else if 0xE1 ≤ b ∧ b ≤ 0xEF then ([], .more (b - 0xE0) 2 0x80 0xBF)
  else if b = 0xF0 then ([], .more 0 3 0x90 0xBF)
  else if 0xF1 ≤ b ∧ b ≤ 0xF3 then ([], .more (b - 0xF0) 3 0x80 0xBF)
  else if b = 0xF4 then ([], .more 4 3 0x80 0x8F)
  else ([replacement], .none)

/-- A byte that cannot continue a character ends it and opens the next one. -/
def feed : Pending → UInt8 → Text × Pending
  | .none, b => opening b.toNat
  | .more value missing low high, b =>
      if low ≤ b.toNat ∧ b.toNat ≤ high then
        let value := value * 64 + (b.toNat - 0x80)
        if missing ≤ 1 then ([Char.ofNat value], .none) else ([], .more value (missing - 1) 0x80 0xBF)
      else (replacement :: (opening b.toNat).1, (opening b.toNat).2)

def decodeFrom : Pending → Bytes → Text
  | p, [] => p.flush
  | p, b :: r => (feed p b).1 ++ decodeFrom (feed p b).2 r

/-- UTF-8 with one replacement character for each longest start of a character that the next
byte breaks off. -/
def decode (bytes : Bytes) : Text := decodeFrom .none bytes

/-- Well-formed UTF-8 is what decodes without a break. -/
def wellFormedFrom : Pending → Bytes → Bool
  | p, [] => p = .none
  | .none, b :: r => (opening b.toNat).1 ≠ [replacement] && wellFormedFrom (opening b.toNat).2 r
  | .more v m l h, b :: r =>
      l ≤ b.toNat && b.toNat ≤ h && wellFormedFrom (feed (.more v m l h) b).2 r

def decode? (bytes : Bytes) : Option Text :=
  if wellFormedFrom .none bytes then some (decode bytes) else none

/-- The UTF-8 bytes of a text. -/
def encode (t : Text) : Bytes := t.flatMap String.utf8EncodeChar

theorem encode_append (t u : Text) : encode (t ++ u) = encode t ++ encode u := List.flatMap_append

end PromptAudit.Text
