/-!
# Reading arguments

Arguments are options and operands. A long option is written `--name` or `--name=value`, and
several one-letter options may share a dash, the last one with its value behind it: `-vc all` is
`-v -c all`. An option that takes a value and is written without one takes the next argument, unless
that is an option. After `--` every argument is an operand.

An option that takes a value, and the operand, stay *pending* until the next known option or operand
or the end; only then it is checked that the value is there, that it may be given, and that it was
not given before. So an unknown argument is reported before a mistake in what is pending.
-/

namespace FacetedSearch.Command

/-- Why arguments do not lead to a command. -/
inductive Refusal where
  /-- Help was asked for. -/
  | help
  /-- There are no arguments at all. -/
  | nothingGiven
  /-- There are options and no command. -/
  | missingCommand
  /-- The command does not exist. -/
  | unknownCommand
  /-- The command, or what may be given in general, has no such argument. -/
  | unknownArgument
  /-- The operand of the command is missing. -/
  | missingOperand
  /-- An option that takes a value has none, or the operand is empty. -/
  | missingValue
  /-- A value was given to an option that takes none. -/
  | unwantedValue
  /-- An option that may be given once was given again. -/
  | repeatedOption
  deriving DecidableEq, Repr

/-- The exit code when there is no command: asking for help is no mistake. -/
def Refusal.exitCode : Refusal → Nat
  | help => 0
  | _ => 2

/-- What an option takes, and how often it may be given. -/
inductive OptionKind where
  /-- No value, once. -/
  | switch
  /-- No value, any number of times. -/
  | counter
  /-- A value, once. -/
  | value
  /-- No value; it asks for help. -/
  | help
  deriving DecidableEq, Repr

/-- An option: its long name, and its letter if it has one. -/
structure OptionForm where
  name : String
  letter : Option Char := none
  kind : OptionKind
  deriving DecidableEq, Repr

/-- What may be given. -/
structure ArgumentForm where
  options : List OptionForm
  /-- There is an operand, and it has to be given. -/
  takesOperand : Bool
  deriving DecidableEq, Repr

/-- How an argument is written. -/
inductive Argument where
  /-- `--` -/
  | separator
  /-- `--name` or `--name=value` -/
  | long (name : String) (value : Option String)
  /-- One-letter options behind a dash. -/
  | letters (letters : List Char)
  /-- Anything else, a single dash too. -/
  | plain (text : String)
  deriving DecidableEq, Repr

/-- Split a long option at its first equals sign. -/
def splitValue (s : List Char) : Argument :=
  let name := String.ofList (s.takeWhile (· != '='))
  match s.dropWhile (· != '=') with
  | [] => .long name none
  | _ :: value => .long name (some (String.ofList value))

/-- Tell how an argument is written. -/
def Argument.ofText (text : String) : Argument :=
  match text.toList with
  | ['-', '-'] => .separator
  | '-' :: '-' :: rest => splitValue rest
  | '-' :: c :: rest => .letters (c :: rest)
  | _ => .plain text

/-- What is not settled yet. -/
inductive Pending where
  /-- An option that takes a value, and the value when it has been read. -/
  | option (name : String) (value : Option String)
  | operand (text : String)
  deriving DecidableEq, Repr

/-- What has been read of the arguments. -/
structure Given where
  /-- The options, with their values; the value of an option without one is empty. -/
  options : List (String × String) := []
  operand : Option String := none
  pending : Option Pending := none
  deriving DecidableEq, Repr

namespace Given

/-- The option is given. -/
def has (g : Given) (name : String) : Bool :=
  (g.options.lookup name).isSome

/-- The value of an option. -/
def value? (g : Given) (name : String) : Option String :=
  g.options.lookup name

/-- Add an option that may be given once. -/
def addOnce (g : Given) (name value : String) : Except Refusal Given :=
  if g.has name then .error .repeatedOption
  else .ok { g with options := g.options ++ [(name, value)] }

/-- Settle what is pending. -/
def settle (g : Given) : Except Refusal Given :=
  match g.pending with
  | none => .ok g
  | some (.option _ none) => .error .missingValue
  | some (.option name (some value)) => { g with pending := none }.addOnce name value
  | some (.operand text) =>
    if text = "" then .error .missingValue
    else .ok { g with operand := some text, pending := none }

/-- An option without a value, or a value option with the value attached to it. -/
def addOption (g : Given) (option : OptionForm) (value : Option String) : Except Refusal Given := do
  match option.kind, value with
  | .value, some value => (← g.settle).addOnce option.name value
  | .value, none => return { ← g.settle with pending := some (.option option.name none) }
  | _, some _ => .error .unwantedValue
  | .switch, none => (← g.settle).addOnce option.name ""
  | .counter, none =>
    let g ← g.settle
    return { g with options := g.options ++ [(option.name, "")] }
  | .help, none =>
    let _ ← g.settle
    .error .help

/-- The value that stands behind a letter: what is left, without an equals sign in front. -/
def attachedValue : List Char → Option String
  | [] => none
  | '=' :: rest => some (String.ofList rest)
  | rest => some (String.ofList rest)

/-- Read one-letter options. -/
def addLetters (form : ArgumentForm) (g : Given) : List Char → Except Refusal Given
  | [] => .ok g
  | c :: rest =>
    match form.options.find? (·.letter == some c) with
    | none => .error .unknownArgument
    | some option =>
      if option.kind = .value then g.addOption option (attachedValue rest)
      else do
        let g ← g.addOption option none
        addLetters form g rest

/-- Read a long option. -/
def addLong (form : ArgumentForm) (g : Given) (name : String) (value : Option String) :
    Except Refusal Given :=
  match form.options.find? (·.name == name) with
  | none => .error .unknownArgument
  | some option => g.addOption option value

/-- There is an operand already. -/
def hasOperand (g : Given) : Bool :=
  g.operand.isSome ||
    match g.pending with
    | some (.operand _) => true
    | _ => false

/-- Read an operand. -/
def addOperand (form : ArgumentForm) (g : Given) (text : String) : Except Refusal Given :=
  if form.takesOperand && !g.hasOperand then do
    return { ← g.settle with pending := some (.operand text) }
  else .error .unknownArgument

/-- Read an argument that is no option: the value that is waited for, or an operand. -/
def addPlain (form : ArgumentForm) (g : Given) (text : String) : Except Refusal Given :=
  match g.pending with
  | some (.option name none) => .ok { g with pending := some (.option name (some text)) }
  | _ => g.addOperand form text

/-- The end of the arguments: everything is settled, and the operand is there. -/
def finish (form : ArgumentForm) (g : Given) : Except Refusal Given := do
  let g ← g.settle
  if form.takesOperand && g.operand.isNone then .error .missingOperand
  return g

/-- Read arguments. -/
def read (form : ArgumentForm) (g : Given) : List String → Except Refusal Given
  | [] => g.finish form
  | argument :: rest =>
    match Argument.ofText argument with
    | .separator => do
      let g ← rest.foldlM (addOperand form) g
      g.finish form
    | .long name value => do
      let g ← g.addLong form name value
      read form g rest
    | .letters letters => do
      let g ← g.addLetters form letters
      read form g rest
    | .plain text => do
      let g ← g.addPlain form text
      read form g rest

end Given

end FacetedSearch.Command
