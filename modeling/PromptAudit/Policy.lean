import PromptAudit.Number.Double
import PromptAudit.Text.Basic

namespace PromptAudit

/-- The pieces between double colons, the first one apart. -/
def Text.cutColons : Text → Text × List Text
  | [] => ([], [])
  | ':' :: ':' :: r =>
      let rest := cutColons r
      ([], rest.1 :: rest.2)
  | c :: r =>
      let rest := cutColons r
      (c :: rest.1, rest.2)

/-- The segments of a constant's name. Empty ones, as before a leading double colon, are none. -/
def Text.segments (t : Text) : List Text :=
  ((Text.cutColons t).1 :: (Text.cutColons t).2).filter fun s => !s.isEmpty

/-- What a run looks for, fixed before it starts. -/
structure Policy where
  maxTokens : Int
  temperatureLimit : Number.Double
  systemTag : Text
  clientTypes : List Text
  clientHints : List Text
  precisionWords : List Text
  deriving DecidableEq, Repr

namespace Policy

def defaultMaxTokens : Nat := 4000

/-- The binary64 number nearest to seven tenths. -/
def defaultTemperatureLimit : Number.Double := ⟨false, Number.Double.nearest 7 10⟩

def defaultClientTypes : List Text := ["OpenAI::Client".toList]

def defaultClientHints : List Text :=
  ["client", "openai_client", "ai_client", "llm_client", "chat_client", "api_client"].map String.toList

/-- Words of accuracy, of facts and data, of classification, and of code. -/
def defaultPrecisionWords : List Text := [
  "accurate", "accuracy", "precise", "precision", "exact", "exactly", "analyze", "analysis",
  "calculate", "computation", "compute", "measure", "measurement", "count", "sum", "total",
  "fact", "factual", "data", "information", "correct", "verify", "validate", "check", "review",
  "audit", "inspect",
  "classify", "classification", "categorize", "category", "sort", "organize", "structure", "parse",
  "extract",
  "code", "programming", "syntax", "debug", "error", "fix", "technical", "documentation",
  "specification", "format"].map String.toList

def standard : Policy where
  maxTokens := defaultMaxTokens
  temperatureLimit := defaultTemperatureLimit
  systemTag := "SYSTEM".toList
  clientTypes := defaultClientTypes
  clientHints := defaultClientHints
  precisionWords := defaultPrecisionWords

/-- The constant paths of the client types. -/
def clientPaths (p : Policy) : List (List Text) := p.clientTypes.map Text.segments

end Policy

end PromptAudit
