import PromptAudit.Command.Token

namespace PromptAudit.Command

/-- One thing that a list of arguments asks for. -/
inductive Step
  | use (s : Switch) (value : Text)
  | operand (text : Text)
  | separator
  | strange (text : Text)
  | fail (complaint : Complaint)
  deriving DecidableEq, Repr

/-- What a single argument asks for; `wants` is a switch that takes the next argument as its
value. -/
structure Bundle where
  steps : List Step
  wants : Option Switch := none

namespace Bundle

def fail (complaint : Complaint) : Bundle := ⟨[.fail complaint], none⟩

/-- A switch without anything attached to it. -/
def bare (s : Switch) : Bundle := if s.takesValue then ⟨[], some s⟩ else ⟨[.use s []], none⟩

/-- A switch with a value after an equals sign. -/
def valued (s : Switch) (value : Text) : Bundle :=
  if s.takesValue then ⟨[.use s value], none⟩ else fail (.needlessValue s value)

/-- A switch before the others. A mistake among them leaves nothing to be done. -/
def after (s : Switch) (b : Bundle) : Bundle :=
  match b.steps with
  | [.fail complaint] => fail complaint
  | steps => { b with steps := .use s [] :: steps }

/-- A switch with letters after its short name: they are its value, or further switches. -/
def lettered (p : Page) (s : Switch) : Text → Bundle
  | [] => bare s
  | c :: r =>
      if s.takesValue then ⟨[.use s (c :: r)], none⟩
      else if c = '-' then fail (.needlessValue s (c :: r))
      else match p.named? ['-', c] with
        | none => ⟨[.use s [], .strange ('-' :: c :: r)], none⟩
        | some next => match r with
          | '=' :: value => (valued next value).after s
          | r => (lettered p next r).after s

def ofSwitch (p : Page) (s : Switch) : Option Attached → Bundle
  | none => bare s
  | some (.value value) => valued s value
  | some (.letters letters) => lettered p s letters

end Bundle

/-- The steps of tokens. A switch that still wants its value takes the next argument, which must
be plain. -/
def Page.steps (p : Page) : List Token → List Step
  | [] => []
  | .separator :: rest => .separator :: p.steps rest
  | .plain t :: rest => .operand t :: p.steps rest
  | .strange t :: rest => .strange t :: p.steps rest
  | .switch s attached :: .plain value :: rest =>
      let b := Bundle.ofSwitch p s attached
      match b.wants with
      | none => b.steps ++ .operand value :: p.steps rest
      | some last => b.steps ++ .use last value :: p.steps rest
  | .switch s attached :: rest =>
      let b := Bundle.ofSwitch p s attached
      match b.wants with
      | none => b.steps ++ p.steps rest
      | some last => [.fail (.noValue last)]

end PromptAudit.Command
