import PromptAudit.Report

namespace PromptAudit.Report

/-- `1 file`, but `2 files`. -/
def plural (n : Nat) (noun : Text) : Text :=
  Text.ofNat n ++ ' ' :: noun ++ if n = 1 then [] else ['s']

def summary (r : Report) : Text :=
  plural r.length "file".toList ++ " inspected, ".toList ++
    plural r.findings.length "finding".toList ++
    if r.failedFiles.isEmpty then []
    else ", ".toList ++ Text.ofNat r.failedFiles.length ++ " failed".toList

/-- A file's error, then its findings. -/
def fileLines (f : FileReport) : List Text :=
  (if f.failed then [f.path ++ ": error: ".toList ++ f.error.getD []] else []) ++
    f.findings.map Finding.diagnostic

def detailLines (r : Report) : List Text := r.flatMap fileLines

/-- One line for each error and finding, and after an empty line the summary. -/
def plain (r : Report) : Text :=
  let details := r.detailLines
  Text.join ['\n'] (details ++ (if details.isEmpty then [] else [[]]) ++ [r.summary])

end PromptAudit.Report
