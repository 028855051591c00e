import PromptAudit.Command.Listing

namespace PromptAudit.Program

open Command

/-- The variables that settings may come from. -/
def settingVariables : List String := [
  "PROMPTLINT_MAX_TOKENS", "PROMPTLINT_DISABLED_RULES", "PROMPTLINT_CLIENT_TYPES",
  "PROMPTLINT_CLIENT_NAME_HINTS", "PROMPTLINT_PRECISION_KEYWORDS",
  "PROMPTLINT_TOKENIZER_ENCODING", "PROMPTLINT_LOG_LEVEL", "PROMPTLINT_SKIP_DIRECTORIES"]

def environment : IO (List (Text × Text)) :=
  settingVariables.filterMapM fun name => do
    return (← IO.getEnv name).map fun value => (name.toList, value.toList)

partial def readAll (input : IO.FS.Stream) (seen : String) : IO Text := do
  let line ← input.getLine
  if line.isEmpty then return seen.toList else readAll input (seen ++ line)

/-- The workspace comes from standard input; arguments that need no workspace are answered
without it. -/
def listing (arguments : List Text) : IO (Option Listing) :=
  match Request.ofArguments arguments with
  | .error _ => return some {}
  | .ok _ => do return Listing.ofText? (← readAll (← IO.getStdin) "")

def write (o : Output) : IO UInt32 := do
  (← IO.getStdout).putStr (String.ofList o.stdout)
  (← IO.getStderr).putStr (String.ofList o.stderr)
  return o.exit.toUInt32

def answer (arguments : List Text) : IO UInt32 := do
  match ← listing arguments with
  | none => write ⟨2, [], "Error: the workspace listing cannot be read\n".toList⟩
  | some l =>
      let surroundings : Surroundings :=
        ⟨l.workspace, ← environment, .standard, l.stamp, l.time⟩
      match run surroundings arguments with
      | .ok output => write output
      | .error crash => write ⟨1, [], crash.message ++ ['\n']⟩

end PromptAudit.Program

def main (arguments : List String) : IO UInt32 :=
  PromptAudit.Program.answer (arguments.map String.toList)
