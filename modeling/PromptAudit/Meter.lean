import PromptAudit.Notice
import PromptAudit.Text.Decode

namespace PromptAudit

/-- Counts the tokens of a text, or says why it cannot. -/
abbrev Encoder := Text → Except Text Nat

namespace Encoder

/-- Gives the encoder of an encoding by its name, or says why it cannot. -/
abbrev Loader := Text → Except Text Encoder

def words : Encoder := fun t => .ok (Text.words t).length

def chars : Encoder := fun t => .ok t.length

def bytes : Encoder := fun t => .ok (Text.encode t).length

/-- A loader that knows three encodings. -/
def load : Loader := fun name =>
  if name = "words".toList then .ok words
  else if name = "chars".toList then .ok chars
  else if name = "bytes".toList then .ok bytes
  else .error ("Unknown encoding ".toList ++ name)

end Encoder

/-- Tokens of a text; `estimated` when no encoder could tell them. -/
structure Count where
  value : Nat
  estimated : Bool
  deriving DecidableEq, Repr

/-- Four characters make about one token. -/
def estimateTokens (t : Text) : Nat := t.length / 4

/-- Counts tokens with one encoding, which is loaded when it is first needed. A failure is
reported once, and a failed load is not tried again. -/
structure Meter where
  encoding : Text
  encoder : Option Encoder
  loads : Nat := 0
  failed : Bool := false
  warned : Bool := false
  load : Encoder.Loader := Encoder.load

namespace Meter

def defaultEncoding : Text := "cl100k_base".toList

def ofEncoding (encoding : Text) : Meter := { encoding, encoder := none }

/-- The estimate, and a warning if it is the meter's first. -/
def approximate (m : Meter) (reason t : Text) : Count × Meter × List Notice :=
  (⟨estimateTokens t, true⟩, { m with warned := true },
    if m.warned then [] else [.approximated m.encoding reason])

def apply (m : Meter) (encoder : Encoder) (t : Text) : Count × Meter × List Notice :=
  match encoder t with
  | .ok n => (⟨n, false⟩, m, [])
  | .error reason => m.approximate reason t

def count (m : Meter) (t : Text) : Count × Meter × List Notice :=
  match m.encoder with
  | some encoder => m.apply encoder t
  | none =>
      if m.failed then (⟨estimateTokens t, true⟩, m, [])
      else
        match m.load m.encoding with
        | .ok encoder =>
            { m with loads := m.loads + 1, encoder := some encoder : Meter }.apply encoder t
        | .error reason =>
            { m with loads := m.loads + 1, failed := true : Meter }.approximate reason t

end Meter

end PromptAudit
