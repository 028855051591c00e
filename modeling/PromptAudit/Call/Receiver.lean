import PromptAudit.Call.Constant
import PromptAudit.Call.Region
import PromptAudit.Text.Lower

namespace PromptAudit

/-- What a call is sent to: a client constructed in place, a variable of a scope where a client
is constructed, a local variable with a telling name, or anything else. -/
inductive Receiver
  | constructed (node : Nat)
  | traced (node origin : Nat)
  | named (node : Nat)
  | unknown (node : Option Nat)
  deriving DecidableEq, Repr

namespace Receiver

def node : Receiver → Option Nat
  | constructed n => some n
  | traced n _ => some n
  | named n => some n
  | unknown n => n

/-- The assignment that constructs the client of a traced variable. -/
def origin : Receiver → Option Nat
  | traced _ o => some o
  | _ => none

def isClient : Receiver → Bool
  | unknown _ => false
  | _ => true

end Receiver

namespace Tree

variable (t : Tree)

def isVariable (i : Nat) : Bool :=
  ["identifier", "instance_variable", "class_variable", "global_variable"].contains (t.type i)

def isAssignment (i : Nat) : Bool := t.type i = "assignment" || t.type i = "operator_assignment"

def isParameterList (i : Nat) : Bool :=
  ["method_parameters", "block_parameters", "lambda_parameters"].contains (t.type i)

def assignsClient (policy : Policy) (i : Nat) : Bool :=
  t.isAssignment i && (t.field i "right").any (t.constructsClient policy)

/-- The first assignment of a client in the scope of a node. -/
def clientAssignment (policy : Policy) (i : Nat) : Option Nat :=
  (t.scopeNodes (t.enclosingScope i)).find? (t.assignsClient policy)

def isNamed (name : Text) (i : Nat) : Bool := t.type i = "identifier" && t.text i = name

/-- A node that binds a name for what starts at an offset: an earlier assignment, or a list of
parameters. -/
def binds (name : Text) (offset : Nat) (i : Nat) : Bool :=
  if t.isAssignment i then
    (t.field i "left").any (t.isNamed name) && t.start i < offset
  else t.isParameterList i && (i :: t.descendants i).any (t.isNamed name)

/-- A bare identifier may also be a method call; only a binding in its scope makes it a variable. -/
def isLocal (i : Nat) : Bool :=
  (t.scopeNodes (t.enclosingScope i)).any (t.binds (t.text i) (t.start i))

def hasTellingName (policy : Policy) (i : Nat) : Bool :=
  policy.clientHints.any fun hint => Text.occurs hint (Text.lower (t.text i))

def resolve (policy : Policy) (i : Nat) : Receiver :=
  if t.constructsClient policy i then .constructed i
  else match (if t.isVariable i then t.clientAssignment policy i else none) with
    | some origin => .traced i origin
    | none =>
        if t.type i = "identifier" && t.isLocal i && t.hasTellingName policy i then .named i
        else .unknown (some i)

def receiver (policy : Policy) (node : Option Nat) : Receiver :=
  match node with
  | some i => t.resolve policy i
  | none => .unknown none

end Tree

end PromptAudit
