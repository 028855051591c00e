import PromptAudit.Call.Receiver

namespace PromptAudit

/-- Keyword arguments in the order in which they are first given. -/
abbrev Keywords := List (Text × Nat)

namespace Keywords

def has (ks : Keywords) (key : Text) : Bool := ks.any (·.1 = key)

/-- Writes a pair down at the end; a key that is there keeps its value. -/
def put (ks : Keywords) (p : Text × Nat) : Keywords := if ks.has p.1 then ks else ks ++ [p]

/-- The first value of each key. -/
def ofPairs (pairs : List (Text × Nat)) : Keywords := pairs.foldl put []

def get? (ks : Keywords) (key : Text) : Option Nat := ks.lookup key

end Keywords

/-- A call as its source shows it. `splatted` says that keywords may be added when it runs. -/
structure Call where
  node : Nat
  method : Text
  receiver : Receiver
  keywords : Keywords
  splatted : Bool
  deriving Repr

namespace Tree

variable (t : Tree)

/-- A pair with a readable key and a value. -/
def entryOf (i : Nat) : Option (Text × Nat) :=
  match t.pairKey i, t.pairValue i with
  | some key, some value => some (key, value)
  | _, _ => none

def hashKeywords (hash : Nat) : Keywords :=
  Keywords.ofPairs ((t.childrenOf hash).filterMap t.entryOf)

/-- What one argument adds: a pair itself, a hash its keywords. -/
def withArgument (ks : Keywords) (i : Nat) : Keywords :=
  if t.kind i = .pair then (t.entryOf i).elim ks ks.put
  else if t.type i = "hash" then (t.hashKeywords i).foldl Keywords.put ks
  else ks

def argumentKeywords (arguments : Nat) : Keywords :=
  (t.childrenOf arguments).foldl t.withArgument []

def isSplat (i : Nat) : Bool := t.type i = "splat_argument" || t.type i = "hash_splat_argument"

/-- A splat among the arguments, or in a hash among them. A hash is not looked into further. -/
def hasSplat (container : Nat) : Bool :=
  (t.childrenOf container).any fun c =>
    t.isSplat c || (t.type container ≠ "hash" && t.type c = "hash" && (t.childrenOf c).any t.isSplat)

def call (policy : Policy) (i : Nat) : Option Call :=
  if t.kind i = .call then
    (t.field i "method").map fun method => {
      node := i
      method := t.text method
      receiver := t.receiver policy (t.field i "receiver")
      keywords := match t.field i "arguments" with
        | some arguments => t.argumentKeywords arguments
        | none => []
      splatted := (t.field i "arguments").any t.hasSplat }
  else none

/-- A call of one of the methods on a client. -/
def clientCall (policy : Policy) (methods : List Text) (i : Nat) : Option Call :=
  (t.call policy i).filter fun c => methods.contains c.method && c.receiver.isClient

/-- The keywords of the hash that is passed under a keyword. -/
def nestedKeywords (c : Call) (key : Text) : Option Keywords :=
  (c.keywords.get? key).bind fun value =>
    if t.type value = "hash" then some (t.hashKeywords value) else none

/-- A keyword's value, looked up among the arguments and then in the hash under `nested`. -/
def keywordValue (c : Call) (nested : Option Text) (key : Text) : Option Nat :=
  match c.keywords.get? key with
  | some value => some value
  | none => (nested.bind (t.nestedKeywords c)).bind (Keywords.get? · key)

/-- No splat can add keywords to the call, nor to the value under `nested`. -/
def keywordsComplete (c : Call) (nested : Option Text) : Bool :=
  !c.splatted && !((nested.bind c.keywords.get?).any t.hasSplat)

/-- `OpenAI::Client.chat` for a client whose construction is known, else the receiver's own
text. -/
def describeCall (c : Call) : Text :=
  let constructor? := match c.receiver with
    | .constructed node => some node
    | .traced _ origin => t.field origin "right"
    | _ => none
  let path := ((constructor?.bind (t.field · "receiver")).bind t.constantPath).getD []
  if !path.isEmpty then Text.join "::".toList path ++ '.' :: c.method
  else match c.receiver.node with
    | some node => t.text node ++ '.' :: c.method
    | none => c.method

/-- The known text of all `content:` values of the hashes in an array, joined by spaces. -/
def messageTexts (messages : Nat) : List Text :=
  ((t.childrenOf messages).filter (t.type · = "hash")).flatMap fun message =>
    ((t.childrenOf message).filter fun pair => t.pairKey pair = some "content".toList).filterMap
      fun pair => ((t.pairValue pair).bind t.fixedText).filter fun text => !text.isEmpty

def messageContent (messages : Nat) : Option Text :=
  if t.type messages = "array" then some (Text.join [' '] (t.messageTexts messages)) else none

end Tree

end PromptAudit
