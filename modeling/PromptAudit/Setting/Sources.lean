import PromptAudit.Setting.Basic
import PromptAudit.Storage.Disk

namespace PromptAudit.SettingSources

/-- Why the working folder's own file cannot be used, though it is there. -/
inductive Fault
  | undecodable
  | refused (why : Refusal)
  deriving DecidableEq, Repr

def envFileName : Path := .ofText ".env".toList

def Fault.message : Fault → Text
  | undecodable => ".env is not well-formed text".toList
  | refused why => (Trouble.refused why).account envFileName

/-- The text of the working folder's own file, if there is one. -/
def envText (disk : Disk) : Except Fault (Option Text) :=
  match disk.status envFileName with
  | .error why => .error (.refused why)
  | .ok (some (.file _)) => match disk.read envFileName with
    | .error (.refused why) => .error (.refused why)
    | .error _ => .ok none
    | .ok bytes => match Text.decode? bytes with
      | none => .error .undecodable
      | some t => .ok (some t)
  | .ok _ => .ok none

/-- Arguments, the environment, and the assignments in the working folder's own file. -/
def find (disk : Disk) (environment : List (Text × Text)) (arguments : Value) :
    Except Fault SettingSources :=
  match envText disk with
  | .error fault => .error fault
  | .ok t => .ok { arguments, environment, envFile := t.elim [] (EnvFile.assignments environment) }

end PromptAudit.SettingSources
