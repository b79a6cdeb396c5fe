import FacetedSearch.Command.Basic

/-!
# Usage

What is said to a user whose arguments do not lead to a command.
-/

namespace FacetedSearch.Command

/-- How commands are called. -/
def usageText : String :=
  "Usage: [-v]... <COMMAND>\n\n"
    ++ "Commands:\n"
    ++ "  compile <STATE> [-c <CATEGORY>] [--raw] [--get-only] [--json]\n"
    ++ "  facets [--fields <FIELDS>] [--json]\n"
    ++ "  filters <STATE>\n"
    ++ "  config\n"
    ++ "  init [--global] [--force]\n"
    ++ "  help [COMMAND]\n\n"
    ++ "STATE is a filter state document, or - for standard input.\n"

/-- What was wrong with the arguments, when something was. -/
def Refusal.message? : Refusal → Option String
  | help | nothingGiven => none
  | missingCommand => some "a command is required"
  | unknownCommand => some "there is no such command"
  | unknownArgument => some "there is no such argument"
  | missingOperand => some "the state document is missing"
  | missingValue => some "an argument has no value"
  | unwantedValue => some "an option takes no value"
  | repeatedOption => some "an option was given more than once"

/-- What is printed about arguments that do not lead to a command. -/
def Refusal.text (r : Refusal) : String :=
  match r.message? with
  | some message => "error: " ++ message ++ "\n\n" ++ usageText
  | none => usageText

end FacetedSearch.Command
