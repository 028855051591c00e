import PromptAudit.Command.Switch
import PromptAudit.Report.Format

namespace PromptAudit.Command

/-- What is wrong with a list of arguments. -/
inductive Complaint
  | noValue (s : Switch)
  | needlessValue (s : Switch) (value : Text)
  | strangeFormat (value : Text)
  | strangeCommand (word : Text)
  | noPaths
  | ambiguous (given : Text) (names : List Text)
  | unrecognized (arguments : List Text)
  deriving DecidableEq, Repr

namespace Complaint

def choices (value : Text) (all : List Text) : Text :=
  "invalid choice: ".toList ++ Text.quoted value ++ " (choose from ".toList ++
    Text.join ", ".toList (all.map Text.quoted) ++ [')']

def about (subject reason : Text) : Text := "argument ".toList ++ subject ++ ": ".toList ++ reason

def message : Complaint → Text
  | noValue s => about s.shown "expected one argument".toList
  | needlessValue s value => about s.shown ("ignored explicit argument ".toList ++ Text.quoted value)
  | strangeFormat value =>
      about Switch.format.shown (choices value (Report.Format.all.map Report.Format.name))
  | strangeCommand word => about "command".toList (choices word (Page.commands.map Prod.fst))
  | noPaths => "the following arguments are required: paths".toList
  | ambiguous given names =>
      "ambiguous option: ".toList ++ given ++ " could match ".toList ++ Text.join ", ".toList names
  | unrecognized arguments => "unrecognized arguments: ".toList ++ Text.join [' '] arguments

end Complaint

/-- What arguments ask for that needs nothing but the arguments. -/
inductive Ending
  | help (page : Page)
  | version
  | misuse (page : Page) (complaint : Complaint)
  deriving DecidableEq, Repr

end PromptAudit.Command
