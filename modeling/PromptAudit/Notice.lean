import PromptAudit.Finding
import PromptAudit.Value

namespace PromptAudit

inductive Level
  | debug
  | info
  | warning
  deriving DecidableEq, Repr

namespace Level

def rank : Level → Nat
  | debug => 10
  | info => 20
  | warning => 30

def name : Level → Text
  | debug => "DEBUG".toList
  | info => "INFO".toList
  | warning => "WARNING".toList

end Level

/-- What a run tells besides its report. -/
inductive Notice
  | badLimit (value : Value)
  | badOption (value : Value) (kept : Int)
  | strangeOption (name : Text)
  | missingPath (path : Text)
  | outsideLink (path : Text)
  | binaryFile (path : Text)
  | unlistedFolder (path account : Text)
  | discovered (count : Nat)
  | analyzing (files rules : Nat)
  | failedUnit (error : Text)
  | found (finding : Finding)
  | approximated (encoding reason : Text)

namespace Notice

def level : Notice → Level
  | badLimit _ | badOption .. | missingPath _ | unlistedFolder .. | failedUnit _ | approximated .. =>
      .warning
  | analyzing .. => .info
  | strangeOption _ | outsideLink _ | binaryFile _ | discovered _ | found _ => .debug

/-- The part of the program that speaks. -/
def channel : Notice → Text
  | badLimit _ | badOption .. | strangeOption _ => "promptlint.config".toList
  | missingPath _ | outsideLink _ | binaryFile _ | unlistedFolder .. | discovered _ =>
      "promptlint.ingestion.discovery".toList
  | analyzing .. | failedUnit _ | found _ => "promptlint.analysis.engine".toList
  | approximated .. => "promptlint.analysis.tokens".toList

def message : Notice → Text
  | badLimit v => "Invalid max_tokens ".toList ++ v.shown ++ ", using default 4000".toList
  | badOption v kept =>
      "Invalid MaxTokens ".toList ++ v.shown ++ ", using ".toList ++ Text.ofInt kept
  | strangeOption name => "Ignoring unrecognized option ".toList ++ Text.quoted name
  | missingPath path => "Path does not exist: ".toList ++ path
  | outsideLink path => "Skipping symlink outside root: ".toList ++ path
  | binaryFile path => "Skipping binary file: ".toList ++ path
  | unlistedFolder path account => "Cannot list ".toList ++ path ++ ": ".toList ++ account
  | discovered n => "Discovered ".toList ++ Text.ofNat n ++ " source file(s)".toList
  | analyzing files rules =>
      "Analyzing ".toList ++ Text.ofNat files ++ " file(s) with ".toList ++ Text.ofNat rules ++
        " rule(s)".toList
  | failedUnit error => error
  | found f => f.diagnostic
  | approximated encoding reason =>
      "Failed to calculate tokens with ".toList ++ encoding ++ ": ".toList ++ reason ++
        ". Using character approximation.".toList

end Notice

end PromptAudit
