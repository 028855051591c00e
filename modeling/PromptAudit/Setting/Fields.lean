import PromptAudit.Setting.Coerce
import PromptAudit.Policy
import PromptAudit.Finding
import PromptAudit.Report

namespace PromptAudit

/-- A value that was checked, or the names of the fields that do not hold what they should. -/
abbrev Checked (α : Type) := Except (List Text) α

namespace Checked

/-- One field; without a value it has its default. -/
def field {α : Type} (name : String) (default : α) (read : Value → Option α) (source : Option Value) :
    Checked α :=
  match source with
  | none => .ok default
  | some v => match read v with
    | some a => .ok a
    | none => .error [name.toList]

/-- Both of two, or the failures of both. -/
def both {α β : Type} : Checked α → Checked β → Checked (α × β)
  | .ok a, .ok b => .ok (a, b)
  | .ok _, .error e => .error e
  | .error e, .ok _ => .error e
  | .error e, .error f => .error (e ++ f)

end Checked

/-- A policy from its fields. Names and words are taken as they are. -/
def Policy.ofValue (v : Value) : Checked Policy :=
  let get := fun (name : String) => v.get? name.toList
  let limits := Checked.both
    (Checked.field "max_tokens" standard.maxTokens Value.int? (get "max_tokens"))
    (Checked.field "temperature_threshold" standard.temperatureLimit Value.double?
      (get "temperature_threshold"))
  let tag := Checked.field "system_delimiter" standard.systemTag Value.text? (get "system_delimiter")
  let clients := Checked.both
    (Checked.field "client_types" standard.clientTypes Value.texts? (get "client_types"))
    (Checked.field "client_name_hints" standard.clientHints Value.texts? (get "client_name_hints"))
  let words := Checked.field "precision_keywords" standard.precisionWords Value.texts?
    (get "precision_keywords")
  (Checked.both (Checked.both limits tag) (Checked.both clients words)).map
    fun (((maxTokens, temperatureLimit), systemTag), ((clientTypes, clientHints), precisionWords)) =>
      { maxTokens, temperatureLimit, systemTag, clientTypes, clientHints, precisionWords }

namespace Report

/-- A field that may be absent or null. -/
def optionalText? (v : Option Value) : Option (Option Text) :=
  match v with
  | none => some none
  | some .null => some none
  | some (.text t) => some (some t)
  | some _ => none

def spanOf? (v : Value) : Option Span := do
  let number := fun (name : String) => (v.get? name.toList).bind Value.int?
  some ⟨← number "start_line", ← number "start_column", ← number "end_line", ← number "end_column",
    ← number "start_byte", ← number "end_byte"⟩

def findingOf? (v : Value) : Option Finding := do
  let rule ← ((v.get? "rule_id".toList).bind Value.text?).bind RuleId.named?
  let message ← (v.get? "message".toList).bind Value.text?
  let span ← (v.get? "span".toList).bind spanOf?
  let path ← optionalText? (v.get? "path".toList)
  some ⟨rule, message, span, path⟩

def findingsOf? (v : Option Value) : Option (List Finding) :=
  match v with
  | none => some []
  | some (.list items) => items.mapM findingOf?
  | some _ => none

def fileOf? (v : Value) : Option FileReport := do
  let path ← (v.get? "path".toList).bind Value.text?
  let findings ← findingsOf? (v.get? "findings".toList)
  let error ← optionalText? (v.get? "error".toList)
  some ⟨path, findings, error⟩

/-- A report from its files. Fields that it does not know are passed over. -/
def ofValue (v : Value) : Checked Report :=
  match v with
  | .list items => match items.mapM fileOf? with
    | some files => .ok files
    | none => .error ["files".toList]
  | _ => .error ["files".toList]

end Report

end PromptAudit
