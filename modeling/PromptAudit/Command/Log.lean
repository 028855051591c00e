import PromptAudit.Notice

namespace PromptAudit.Command

/-- The capital of an ASCII letter. The dotless i and the long s have ASCII capitals too. -/
def capital (c : Char) : Char :=
  if c = 'ı' then 'I' else if c = 'ſ' then 'S' else c.toUpper

/-- The log of a process: the rank from which on notices are shown, how many outlets it has, and
the rank of the libraries that it keeps quiet. -/
structure Log where
  threshold : Nat := 30
  outlets : Nat := 0
  quiet : Nat := 0
  deriving DecidableEq, Repr

namespace Log

def levels : List (Text × Nat) := [
  ("NOTSET".toList, 0), ("DEBUG".toList, 10), ("INFO".toList, 20), ("WARN".toList, 30),
  ("WARNING".toList, 30), ("ERROR".toList, 40), ("FATAL".toList, 50), ("CRITICAL".toList, 50)]

/-- An unknown level shows warnings. -/
def rankOf (level : Text) : Nat := (levels.lookup (level.map capital)).getD Level.warning.rank

/-- A log is set up once; another time changes nothing. -/
def setUp (l : Log) (level : Text) : Log :=
  if l.outlets = 0 then ⟨rankOf level, 1, Level.warning.rank⟩ else l

/-- A line of the log; `stamp` stands before it. -/
def line (stamp : Text) (n : Notice) : Text :=
  stamp ++ n.level.name ++ " - [".toList ++ n.channel ++ "] - ".toList ++ n.message ++ ['\n']

/-- What the log shows. Before it is set up it shows warnings, and of those only what they say. -/
def shown (l : Log) (stamp : Text) (notices : List Notice) : Text :=
  (notices.filter fun n => l.threshold ≤ n.level.rank).flatMap fun n =>
    if l.outlets = 0 then n.message ++ ['\n'] else line stamp n

end Log

end PromptAudit.Command
