import PromptAudit.Command.Complaint
import PromptAudit.Text.Digit

namespace PromptAudit.Command

/-- What is written in one argument behind the name of a switch: a value after an equals sign, or
letters that follow a single-letter name. -/
inductive Attached
  | value (text : Text)
  | letters (text : Text)
  deriving DecidableEq, Repr

/-- What an argument looks like by itself. -/
inductive Token
  | separator
  | plain (text : Text)
  | switch (s : Switch) (attached : Option Attached)
  | strange (text : Text)
  deriving DecidableEq, Repr

namespace Token

/-- What does not start with a switch. -/
def isOperand : Token → Bool
  | separator | plain _ => true
  | switch .. | strange _ => false

end Token

/-- A name and what follows the first equals sign, if there is one. -/
def splitValue (argument : Text) : Text × Option Text :=
  match argument.dropWhile (· ≠ '=') with
  | [] => (argument, none)
  | _ :: value => (argument.takeWhile (· ≠ '='), some value)

def isDigit (c : Char) : Bool := (Text.digit? c).isSome

/-- Digits, or digits around a point, after the minus sign. One line feed may end them. -/
def isNegativeNumber (argument : Text) : Bool :=
  match argument with
  | '-' :: r =>
      let body := if r.getLast? = some '\n' then r.dropLast else r
      let fraction := body.dropWhile isDigit
      if fraction.isEmpty then !body.isEmpty
      else fraction.head? = some '.' && !fraction.tail.isEmpty && fraction.tail.all isDigit
  | _ => false

namespace Page

/-- The switches that an argument may mean although it is not the name of one: long names may be
cut short, and letters may follow a short name. -/
def candidates (p : Page) (argument : Text) : List (Text × Token) :=
  if "--".toList.isPrefixOf argument then
    let (start, value) := splitValue argument
    (p.switchNames.filter fun n => start.isPrefixOf n.1).map fun n =>
      (n.1, .switch n.2 (value.map .value))
  else
    (p.switchNames.filter fun n => n.1 = argument.take 2).map fun n =>
      (n.1, .switch n.2 (some (.letters (argument.drop 2))))

/-- Looks at an argument that starts with a dash and is longer than it. -/
def dashed (p : Page) (argument : Text) : Except Complaint Token :=
  match p.named? argument with
  | some s => .ok (.switch s none)
  | none => match (splitValue argument).2, p.named? (splitValue argument).1 with
    | some value, some s => .ok (.switch s (some (.value value)))
    | _, _ => match p.candidates argument with
      | [one] => .ok one.2
      | [] =>
          .ok (if isNegativeNumber argument || argument.contains ' ' then .plain argument
            else .strange argument)
      | several => .error (.ambiguous argument (several.map Prod.fst))

def token (p : Page) (argument : Text) : Except Complaint Token :=
  if argument.head? = some '-' && 2 ≤ argument.length then p.dashed argument
  else .ok (.plain argument)

/-- After two dashes everything is plain. -/
def tokens (p : Page) : List Text → Except Complaint (List Token)
  | [] => .ok []
  | argument :: rest =>
      if argument = "--".toList then .ok (.separator :: rest.map .plain)
      else match p.token argument with
        | .error complaint => .error complaint
        | .ok token => (p.tokens rest).map (token :: ·)

end Page

end PromptAudit.Command
