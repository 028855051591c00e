import PromptAudit.Command.Step
import PromptAudit.Storage.Path

namespace PromptAudit.Command

/-- What the arguments after `check` ask for. -/
structure Choices where
  paths : List Path := []
  limit : Option Text := none
  format : Report.Format := .text
  only : List Text := []
  except : List Text := []
  verbose : Bool := false
  deriving DecidableEq, Repr

/-- What remains to be done once the arguments are read. -/
inductive Request
  | overview
  | rules
  | check (choices : Choices)
  deriving DecidableEq, Repr

/-- How far the reading has come. Only the first run of plain arguments names paths: `waiting`
before it, `taking` within it, `closed` after it. -/
inductive Phase
  | waiting
  | taking
  | closed
  deriving DecidableEq, Repr

def Phase.interrupted : Phase → Phase
  | waiting => waiting
  | taking | closed => closed

structure Reading where
  choices : Choices := {}
  version : Bool := false
  phase : Phase := .waiting
  unread : List Text := []

namespace Reading

/-- A switch does its work where it stands, so that the last of two counts. -/
def use (r : Reading) (p : Page) (s : Switch) (value : Text) : Except Ending Reading :=
  let r := { r with phase := r.phase.interrupted }
  let set := fun (c : Choices) => Except.ok { r with choices := c }
  match s with
  | .help => .error (.help p)
  | .version => .ok { r with version := true }
  | .limit => set { r.choices with limit := some value }
  | .format => match Report.Format.named? value with
    | some format => set { r.choices with format }
    | none => .error (.misuse p (.strangeFormat value))
  | .only => set { r.choices with only := Text.commaItems value }
  | .except => set { r.choices with except := Text.commaItems value }
  | .verbose => set { r.choices with verbose := true }

/-- Is there a place for paths? -/
def takes (r : Reading) (p : Page) : Bool := p = .check && r.phase ≠ .closed

def leave (r : Reading) (t : Text) : Reading :=
  { r with phase := r.phase.interrupted, unread := r.unread ++ [t] }

def add (r : Reading) (t : Text) : Reading :=
  { r with
    phase := .taking
    choices := { r.choices with paths := r.choices.paths ++ [Path.ofText t] } }

/-- Carries steps out until one of them ends the reading. A separator goes with the paths around
it. -/
def run (p : Page) (r : Reading) : List Step → Except Ending Reading
  | [] => .ok r
  | .fail complaint :: _ => .error (.misuse p complaint)
  | .use s value :: rest => match r.use p s value with
    | .error ending => .error ending
    | .ok r => r.run p rest
  | .strange t :: rest => (r.leave t).run p rest
  | .operand t :: rest => (if r.takes p then r.add t else r.leave t).run p rest
  | .separator :: rest =>
      (if r.takes p && (r.phase = .taking || !rest.isEmpty) then r else r.leave "--".toList).run p rest

end Reading

namespace Request

def reading (p : Page) (arguments : List Text) : Except Ending Reading :=
  match p.tokens arguments with
  | .error complaint => .error (.misuse p complaint)
  | .ok tokens => Reading.run p {} (p.steps tokens)

/-- The arguments of a command, and what they leave unread. -/
def ofCommand (p : Page) (arguments : List Text) : Except Ending (Request × List Text) :=
  match reading p arguments with
  | .error ending => .error ending
  | .ok r => match p with
    | .check =>
        if r.choices.paths.isEmpty then .error (.misuse .check .noPaths)
        else .ok (.check r.choices, r.unread)
    | _ => .ok (.rules, r.unread)

/-- The command word and its arguments. Two dashes at the end of all arguments are no word. -/
def ofWords : List Text → Except Ending (Request × List Text)
  | [] => .ok (.overview, [])
  | word :: rest =>
      if word = "--".toList && rest.isEmpty then .ok (.overview, [word])
      else match Page.commands.lookup word with
        | none => .error (.misuse .program (.strangeCommand word))
        | some page => ofCommand page rest

/-- Reads the arguments of the program. What nobody has read is an error, and a wish for the
version outdoes every command. -/
def ofArguments (arguments : List Text) : Except Ending Request := do
  let tokens ← (Page.program.tokens arguments).mapError (.misuse .program)
  let ahead := tokens.takeWhile fun t => !t.isOperand
  let r ← Reading.run .program {} (Page.program.steps ahead)
  let (request, unread) ← ofWords (arguments.drop ahead.length)
  if !(r.unread ++ unread).isEmpty then
    .error (.misuse .program (.unrecognized (r.unread ++ unread)))
  else if r.version then .error .version
  else .ok request

end Request

end PromptAudit.Command
