import FacetedSearch.Command.Arguments

/-!
# Commands

What can be asked for on the command line. The name of a command is its first argument, apart from
options that may be given in general, and the arguments behind the name are its own. The command
`help` takes the name of a command.
-/

namespace FacetedSearch

/-- A command with its arguments. A document is a file, or standard input when it is `-`. -/
inductive Command where
  /-- Compile the query of a state document. -/
  | compile (document : String) (category : Option String) (raw getOnly json : Bool)
  /-- Show the parameters of a facet request. -/
  | facets (fields : Option String) (json : Bool)
  /-- List the filters of a state document. -/
  | filters (document : String)
  /-- Show the configuration. -/
  | config
  /-- Write a new settings file. -/
  | init (inHome force : Bool)
  deriving DecidableEq, Repr

namespace Command

/-- What a command may be called. -/
inductive Name where
  | compile
  | facets
  | filters
  | config
  | init
  | help
  deriving DecidableEq, Repr

namespace Name

/-- The name of a command as a text. -/
def text : Name → String
  | compile => "compile"
  | facets => "facets"
  | filters => "filters"
  | config => "config"
  | init => "init"
  | help => "help"

/-- Every name. -/
def all : List Name :=
  [compile, facets, filters, config, init, help]

/-- Read the name of a command. -/
def ofText? (s : String) : Option Name :=
  all.find? (·.text = s)

end Name

/-- The options that may be given in general: in front of a command and among its arguments. -/
def generalOptions : List OptionForm :=
  [⟨"verbose", some 'v', .counter⟩, ⟨"help", some 'h', .help⟩]

/-- What may be given in front of a command. -/
def generalForm : ArgumentForm where
  options := generalOptions
  takesOperand := false

/-- The options of a command, besides those that may be given in general. -/
def Name.options : Name → List OptionForm
  | compile =>
    [⟨"category", some 'c', .value⟩, ⟨"raw", none, .switch⟩,
      ⟨"get-only", none, .switch⟩, ⟨"json", none, .switch⟩]
  | facets => [⟨"fields", none, .value⟩, ⟨"json", none, .switch⟩]
  | init => [⟨"global", none, .switch⟩, ⟨"force", none, .switch⟩]
  | filters | config | help => []

/-- What may be given to a command. -/
def Name.form (name : Name) : ArgumentForm where
  options := name.options ++ generalOptions
  takesOperand := name = .compile ∨ name = .filters

/-- The command of a name with its arguments. -/
def make : Name → Given → Except Refusal Command
  | .compile, g =>
    .ok (.compile (g.operand.getD "") (g.value? "category") (g.has "raw") (g.has "get-only")
      (g.has "json"))
  | .facets, g => .ok (.facets (g.value? "fields") (g.has "json"))
  | .filters, g => .ok (.filters (g.operand.getD ""))
  | .config, _ => .ok .config
  | .init, g => .ok (.init (g.has "global") (g.has "force"))
  | .help, _ => .error .help

/-- Help on a command. The names of commands lead to help, but no command has commands of its
own. -/
def helpOn : List String → Refusal
  | [] => .help
  | [name] => if (Name.ofText? name).isSome then .help else .unknownCommand
  | _ => .unknownCommand

/-- Why there is no command at the end of the arguments. -/
def noCommand (g : Given) : Refusal :=
  if g.options.isEmpty then .nothingGiven else .missingCommand

/-- Why there is no command behind `--`, where a name is not one any more. -/
def noCommandBehindSeparator (g : Given) : List String → Refusal
  | [] => noCommand g
  | word :: _ => if (Name.ofText? word).isSome then .unknownArgument else .unknownCommand

/-- Read a command. -/
def read (g : Given) : List String → Except Refusal Command
  | [] => .error (noCommand g)
  | argument :: rest =>
    match Name.ofText? argument with
    | some .help => .error (helpOn rest)
    | some name => Given.read name.form {} rest >>= make name
    | none =>
      match Argument.ofText argument with
      | .separator => .error (noCommandBehindSeparator g rest)
      | .long name value => do
        let g ← g.addLong generalForm name value
        read g rest
      | .letters letters => do
        let g ← g.addLetters generalForm letters
        read g rest
      | .plain _ => .error .unknownCommand

/-- The command that arguments ask for. -/
def ofArguments (arguments : List String) : Except Refusal Command :=
  read {} arguments

end Command

end FacetedSearch
