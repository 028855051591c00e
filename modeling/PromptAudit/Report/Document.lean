import PromptAudit.Report
import PromptAudit.Text.Quoted

namespace PromptAudit

/-- A JSON document without fractions. -/
inductive Document
  | null
  | whole (value : Int)
  | text (value : Text)
  | list (items : List Document)
  | table (fields : List (Text × Document))

namespace Document

/-- Quotes, backslashes and control characters are escaped, all else stays. -/
def escapedChar (c : Char) : Text :=
  if c = '\x22' || c = '\\' then ['\\', c]
  else if c = '\n' then ['\\', 'n']
  else if c = '\r' then ['\\', 'r']
  else if c = '\t' then ['\\', 't']
  else if c = '\x08' then ['\\', 'b']
  else if c = '\x0c' then ['\\', 'f']
  else if c.toNat < 32 then ['\\', 'u'] ++ Text.hexDigits 4 c.toNat
  else [c]

def quoted (t : Text) : Text := '\x22' :: t.flatMap escapedChar ++ ['\x22']

def indentation (depth : Nat) : Text := '\n' :: List.replicate (2 * depth) ' '

/-- Items on lines of their own, two spaces deeper than the brackets around them. -/
def block (left right : Char) (depth : Nat) (items : List Text) : Text :=
  if items.isEmpty then [left, right]
  else
    left :: Text.join [','] (items.map (indentation (depth + 1) ++ ·)) ++ indentation depth ++
      [right]

mutual

def render (depth : Nat) : Document → Text
  | null => "null".toList
  | whole n => Text.ofInt n
  | text t => quoted t
  | list items => block '[' ']' depth (renderItems (depth + 1) items)
  | table fields => block '\x7b' '\x7d' depth (renderFields (depth + 1) fields)

def renderItems (depth : Nat) : List Document → List Text
  | [] => []
  | d :: rest => render depth d :: renderItems depth rest

def renderFields (depth : Nat) : List (Text × Document) → List Text
  | [] => []
  | (key, d) :: rest => (quoted key ++ ": ".toList ++ render depth d) :: renderFields depth rest

end

def ofNat (n : Nat) : Document := whole n

end Document

namespace Report

def version : Text := "0.1.0".toList

def findingDocument (f : Finding) : Document := .table [
  ("rule_id".toList, .text f.rule.name),
  ("message".toList, .text f.message),
  ("line".toList, .whole f.span.startLine),
  ("column".toList, .whole (f.span.startColumn + 1)),
  ("end_line".toList, .whole f.span.endLine),
  ("end_column".toList, .whole (f.span.endColumn + 1))]

def fileDocument (f : FileReport) : Document := .table [
  ("path".toList, .text f.path),
  ("error".toList, match f.error with
    | some e => .text e
    | none => .null),
  ("findings".toList, .list (f.findings.map findingDocument))]

/-- The whole report with the time when it was made. -/
def document (time : Text) (r : Report) : Document := .table [
  ("tool".toList, .text "promptlint".toList),
  ("version".toList, .text version),
  ("generated_at".toList, .text time),
  ("summary".toList, .table [
    ("file_count".toList, .ofNat r.length),
    ("failed_count".toList, .ofNat r.failedFiles.length),
    ("finding_count".toList, .ofNat r.findings.length),
    ("by_rule".toList, .table (r.counts.map fun c => (c.1.name, .ofNat c.2)))]),
  ("files".toList, .list (r.map fileDocument))]

def json (time : Text) (r : Report) : Text := (r.document time).render 0

end Report

end PromptAudit
