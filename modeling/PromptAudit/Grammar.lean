import PromptAudit.Problem

namespace PromptAudit

/-- The packages that hold grammars, by language, and those of them that are installed and give a
grammar. -/
structure Grammars where
  packages : List (Text × Text)
  installed : List Text

namespace Grammars

def rubyPackage : Text := "tree_sitter_ruby".toList

/-- Units are written in this language. -/
def unitLanguage : Text := "ruby".toList

def standard : Grammars := ⟨[(unitLanguage, rubyPackage)], [rubyPackage]⟩

/-- Another package takes the place of a language's own. -/
def replace (g : Grammars) (language package : Text) : Grammars :=
  { g with packages := (language, package) :: g.packages }

/-- What keeps a language from being parsed. -/
def problem? (g : Grammars) (language : Text) : Option Problem :=
  match g.packages.lookup language with
  | none => some (.noGrammar language none)
  | some package =>
      if g.installed.contains package then none else some (.noGrammar language (some package))

end Grammars

end PromptAudit
