import PromptAudit.Tree.Basic

namespace PromptAudit.Tree

/-- A node that hangs under no field. -/
def Shape.plain (type : String) (start stop : Nat) : Shape := ⟨type, start, stop, none, false⟩

def Shape.held (field type : String) (start stop : Nat) : Shape :=
  ⟨type, start, stop, some field, false⟩

/-- A row that starts with a node without children. -/
def Forest.leaf (shape : Shape) (rest : Forest) : Forest := .more shape .none rest

def Forest.only (shape : Shape) (children : Forest) : Forest := .more shape children .none

/-- The method `prompt` with the hash `{system: value}`, whose value has the nodes of the row. -/
def promptMethod (value : String) (row : Forest) : Tree where
  source := Text.encode ("def prompt\n  \x7bsystem: " ++ value ++ "\x7d\nend\n").toList
  root := .plain "program" 0 (28 + value.length)
  children :=
    .only (.plain "method" 0 (27 + value.length)) <|
      .leaf (.held "name" "identifier" 4 10) <|
      .only (.held "body" "body_statement" 13 (23 + value.length)) <|
      .only (.plain "hash" 13 (23 + value.length)) <|
      .only (.plain "pair" 14 (22 + value.length)) <|
        .leaf (.held "key" "hash_key_symbol" 14 20) row
  broken := false

/-- The call `OpenAI::Client.new.chat` with arguments, whose nodes are numbered from `9` on. -/
def chatting (arguments : String) (row : Forest) : Tree where
  source := Text.encode ("OpenAI::Client.new.chat(" ++ arguments ++ ")\n").toList
  root := .plain "program" 0 (26 + arguments.length)
  children :=
    .only (.plain "call" 0 (25 + arguments.length)) <|
      .more (.held "receiver" "call" 0 18)
        (.more (.held "receiver" "scope_resolution" 0 14)
          (.leaf (.held "scope" "constant" 0 6) <| .leaf (.held "name" "constant" 8 14) .none) <|
          .leaf (.held "method" "identifier" 15 18) .none) <|
      .leaf (.held "method" "identifier" 19 23) <|
      .only (.held "arguments" "argument_list" 23 (25 + arguments.length)) row
  broken := false

/-- The call `client.chat(model: 1)`, which starts at `first`, before the rest of a row. -/
def clientChat (first : Nat) : Forest → Forest :=
  .more (.plain "call" first (first + 21)) <|
    .leaf (.held "receiver" "identifier" first (first + 6)) <|
    .leaf (.held "method" "identifier" (first + 7) (first + 11)) <|
    .only (.held "arguments" "argument_list" (first + 11) (first + 21)) <|
      .only (.plain "pair" (first + 12) (first + 20)) <|
        .leaf (.held "key" "hash_key_symbol" (first + 12) (first + 17)) <|
        .leaf (.held "value" "integer" (first + 19) (first + 20)) .none

end PromptAudit.Tree
