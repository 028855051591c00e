import PromptAudit.Number.Shortest
import PromptAudit.Text.Quoted

namespace PromptAudit

/-- A value that a host program passes in, of whatever type. Fields keep their order. -/
inductive Value
  | null
  | flag (value : Bool)
  | whole (value : Int)
  | real (value : Number.Double)
  | text (value : Text)
  | list (items : List Value)
  | table (fields : List (Text × Value))

namespace Value

mutual

/-- A value as messages show it: texts quoted, numbers with the fewest digits. -/
def shown : Value → Text
  | null => "None".toList
  | flag true => "True".toList
  | flag false => "False".toList
  | whole n => Text.ofInt n
  | real d => d.shortest
  | text t => Text.quoted t
  | list items => '[' :: Text.join ", ".toList (shownItems items) ++ [']']
  | table fields => '\x7b' :: Text.join ", ".toList (shownFields fields) ++ ['\x7d']

def shownItems : List Value → List Text
  | [] => []
  | v :: rest => shown v :: shownItems rest

def shownFields : List (Text × Value) → List Text
  | [] => []
  | (key, v) :: rest => (Text.quoted key ++ ": ".toList ++ shown v) :: shownFields rest

end

/-- The value under a key; a key given twice has its last value. -/
def get? (key : Text) : Value → Option Value
  | table fields => fields.reverse.lookup key
  | _ => none

end Value

end PromptAudit
