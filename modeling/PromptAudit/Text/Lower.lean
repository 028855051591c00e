import PromptAudit.Text.Basic
import PromptAudit.Text.LetterRuns

namespace PromptAudit.Text

def isCased (c : Char) : Bool :=
  if c.toNat < 128 then c.isAlpha else within casedRuns c

/-- Punctuation and marks that may stand inside a word without ending it. -/
def isCaseIgnorable (c : Char) : Bool :=
  if c.toNat < 128 then c = '\x27' || c = '.' || c = ':' || c = '^' || c = '\x60'
  else within caseIgnorableRuns c

/-- The next letter that counts is one with a case. -/
def meetsCased : Text → Bool
  | [] => false
  | c :: r => if isCaseIgnorable c then meetsCased r else isCased c

def CaseRun.holds (run : CaseRun) (n : Nat) : Bool :=
  run.first ≤ n && n ≤ run.last && (n - run.first) % run.step = 0

/-- The small letters of a single letter, out of context. The capital I with a dot keeps its
dot as a combining mark. -/
def lowerChar (c : Char) : Text :=
  if c.toNat < 128 then [c.toLower]
  else if c = 'İ' then ['i', '\u0307']
  else match caseRuns.find? (·.holds c.toNat) with
    | some run => [Char.ofNat (c.toNat + run.up - run.down)]
    | none => [c]

/-- Small letters from a place on. `inside` says that the last letter that counts has a case:
a capital sigma is then final unless another such letter follows. -/
def lowerFrom (inside : Bool) : Text → Text
  | [] => []
  | c :: r =>
      let small := if c = 'Σ' then (if inside && !meetsCased r then ['ς'] else ['σ']) else lowerChar c
      small ++ lowerFrom (if isCaseIgnorable c then inside else isCased c) r

def lower (t : Text) : Text := lowerFrom false t

end PromptAudit.Text
