import PromptAudit.Text.Basic

namespace PromptAudit

/-- What keeps a source unit, or a whole run, from being analyzed. -/
inductive Problem
  | noGrammar (language : Text) (package : Option Text)
  | unreadable (path reason : Text)
  | unparsed (path : Option Text) (line : Int)
  deriving DecidableEq, Repr

namespace Problem

/-- A package is installed under its name with dashes. -/
def dashed (package : Text) : Text := package.map fun c => if c = '_' then '-' else c

def message : Problem → Text
  | noGrammar language package =>
      "No tree-sitter grammar for ".toList ++ language ++ match package with
        | none => []
        | some name => if name.isEmpty then [] else " (pip install ".toList ++ dashed name ++ [')']
  | unreadable path reason => "Cannot read ".toList ++ path ++ ": ".toList ++ reason
  | unparsed path line =>
      "Syntax error at ".toList ++ match path with
        | some p => p ++ ':' :: Text.ofInt line
        | none => "line ".toList ++ Text.ofInt line

end Problem

end PromptAudit
