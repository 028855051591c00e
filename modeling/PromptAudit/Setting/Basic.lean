import PromptAudit.Setting.EnvFile
import PromptAudit.Setting.Fields
import PromptAudit.Meter
import PromptAudit.Text.Lower

namespace PromptAudit

/-- What the user sets for all runs. -/
structure Settings where
  maxTokens : Nat
  disabledRules : List Text
  clientTypes : List Text
  clientHints : List Text
  precisionWords : List Text
  encoding : Text
  logLevel : Text
  skippedFolders : List Text
  deriving DecidableEq, Repr

/-- Where settings come from, each source before the next one. -/
structure SettingSources where
  arguments : Value
  environment : List (Text × Text)
  envFile : List (Text × Text)

/-- A positive integer in a value: a whole number, or decimal digits that underscores may group. -/
def Value.positive? : Value → Option Nat
  | .whole n => if 0 < n then some n.toNat else none
  | .text t =>
      match Number.decimalInt? ((Text.trim t).filter (· ≠ '_')) with
      | some n => if 0 < n then some n.toNat else none
      | none => none
  | _ => none

/-- A list of texts, or one text that lists them between commas. -/
def Value.commaTexts? : Value → Option (List Text)
  | .text t => some (Text.commaItems t)
  | v => v.texts?

namespace SettingSources

/-- The last value under a name, whatever the case of its letters. -/
def lookUp (key : Text) (pairs : List (Text × Text)) : Option Value :=
  (pairs.reverse.find? fun p => Text.lower p.1 = key).map fun p => .text p.2

/-- The value of the first source that has one. -/
def get (s : SettingSources) (name : String) : Option Value :=
  let key := "promptlint_".toList ++ name.toList
  (s.arguments.get? name.toList).or ((lookUp key s.environment).or (lookUp key s.envFile))

end SettingSources

namespace Settings

def defaultSkippedFolders : List Text :=
  ["vendor", "node_modules", "tmp", "log", "coverage", "pkg", ".bundle", ".git"].map String.toList

/-- A limit that is no positive integer gives way to the default, with a warning. -/
def limit (source : Option Value) : Nat × List Notice :=
  match source with
  | none => (Policy.defaultMaxTokens, [])
  | some v => match v.positive? with
    | some n => (n, [])
    | none => (Policy.defaultMaxTokens, [.badLimit v])

def read (s : SettingSources) : Checked (Settings × List Notice) :=
  let texts := fun (name : String) (default : List Text) =>
    Checked.field name default Value.commaTexts? (s.get name)
  let text := fun (name : String) (default : Text) =>
    Checked.field name default Value.text? (s.get name)
  let (maxTokens, notices) := limit (s.get "max_tokens")
  let clients := Checked.both (texts "client_types" Policy.defaultClientTypes)
    (texts "client_name_hints" Policy.defaultClientHints)
  let words := Checked.both (texts "precision_keywords" Policy.defaultPrecisionWords)
    (text "tokenizer_encoding" Meter.defaultEncoding)
  let rest := Checked.both (text "log_level" "WARNING".toList)
    (texts "skip_directories" defaultSkippedFolders)
  (Checked.both (Checked.both (texts "disabled_rules" []) clients) (Checked.both words rest)).map
    fun ((disabledRules, (clientTypes, clientHints)),
        ((precisionWords, encoding), (logLevel, skippedFolders))) =>
      ({ maxTokens, disabledRules, clientTypes, clientHints, precisionWords, encoding, logLevel,
         skippedFolders }, notices)

/-- The one option that a host program can set. -/
def limitOption : Text := "MaxTokens".toList

/-- The limit after a host's options, and what there is to say about them. -/
def applyOptions : Nat → List (Text × Value) → Nat × List Notice
  | kept, [] => (kept, [])
  | kept, (name, v) :: rest =>
      if name ≠ limitOption then
        let (n, notices) := applyOptions kept rest
        (n, .strangeOption name :: notices)
      else match v.positive? with
        | some n => applyOptions n rest
        | none =>
            let (n, notices) := applyOptions kept rest
            (n, .badOption v kept :: notices)

/-- The policy of one run. Hints and words are compared in small letters. -/
def policy (s : Settings) (options : List (Text × Value)) : Policy × List Notice :=
  let (maxTokens, notices) := applyOptions s.maxTokens options
  ({ Policy.standard with
      maxTokens
      clientTypes := s.clientTypes
      clientHints := s.clientHints.map Text.lower
      precisionWords := s.precisionWords.map Text.lower }, notices)

end Settings

end PromptAudit
