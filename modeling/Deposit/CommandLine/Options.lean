import Deposit.Network

/-!
Options on a command line.

A level of the command line has options and operands. The value of an option is
attached to it, or is the argument behind it. It is settled when the next option, the
next operand or the end comes, so a fault in a value shows only then.
-/

namespace Deposit.CommandLine

/-- Why a command line cannot be followed. -/
inductive Fault where
  /-- Help was asked for. -/
  | help
  /-- The version was asked for. -/
  | version
  /-- There is nothing on the command line. -/
  | nothing
  /-- There are options, but no command. -/
  | missingCommand
  | unknownCommand
  | unknownOption
  /-- An option or operand that has to be given is not. -/
  | missingArgument
  /-- The value of an option is missing, or is empty where it must not be. -/
  | missingValue
  /-- A value is attached to an option that has none. -/
  | unexpectedValue
  /-- An option is given twice. -/
  | repeatedOption
  /-- The value of an option is none that the option can have. -/
  | invalidValue
  deriving DecidableEq, Repr

/-- What an option does. -/
inductive Kind where
  /-- It takes any text. -/
  | text
  /-- It takes the path of a file. -/
  | path
  /-- It takes the name of a network. -/
  | network
  /-- It is on if it is given. -/
  | flag
  | help
  | version
  deriving DecidableEq, Repr

/-- Whether an option has a value. -/
def Kind.takesValue : Kind → Bool
  | .text | .path | .network => true
  | .flag | .help | .version => false

/-- An option. -/
structure CommandOption where
  name : String
  letter : Option Char
  kind : Kind
  /-- The variable of the environment that stands in for it. -/
  standIn : Option String
  deriving DecidableEq, Repr

/-- What has been given: options with their values, `true` for a flag, and operands. -/
structure Given where
  options : List (String × String)
  operands : List String
  deriving DecidableEq, Repr

/-- An option whose value is not settled. -/
inductive Pending where
  | none
  /-- The value is missing. -/
  | awaiting (o : CommandOption)
  /-- The value was the argument behind the option. -/
  | holding (o : CommandOption) (value : String)
  deriving DecidableEq, Repr

/-- A place on the command line. -/
structure Scan where
  given : Given
  pending : Pending
  deriving DecidableEq, Repr

/-- The start of a level. -/
def Scan.start : Scan := ⟨⟨[], []⟩, .none⟩

/-- Whether a value is one that the option can have. -/
def checkValue (kind : Kind) (value : String) : Except Fault Unit :=
  match kind with
  | .path => if value.isEmpty then .error .missingValue else .ok ()
  | .network =>
    match Network.ofText value with
    | .ok _ => .ok ()
    | .error _ => .error .invalidValue
  | _ => .ok ()

/-- Settles an option that was not given before. -/
def store (given : Given) (o : CommandOption) (value : String) : Except Fault Given :=
  if given.options.any (·.1 == o.name) then .error .repeatedOption
  else (checkValue o.kind value).map fun _ =>
    { given with options := given.options ++ [(o.name, value)] }

/-- Settles what is pending. -/
def settle (scan : Scan) : Except Fault Given :=
  match scan.pending with
  | .none => .ok scan.given
  | .awaiting _ => .error .missingValue
  | .holding o value => store scan.given o value

/-- Adds an operand. -/
def addOperand (scan : Scan) (operand : String) : Except Fault Scan :=
  (settle scan).map fun given => ⟨{ given with operands := given.operands ++ [operand] }, .none⟩

/-- Adds an option with the value that is attached to it, if there is one. -/
def addOption (scan : Scan) (o : CommandOption) (attached : Option String) :
    Except Fault Scan :=
  match o.kind.takesValue, attached with
  | true, some value => do
    let given ← store (← settle scan) o value
    .ok ⟨given, .none⟩
  | true, none => (settle scan).map fun given => ⟨given, .awaiting o⟩
  | false, some _ => .error .unexpectedValue
  | false, none => do
    let given ← settle scan
    match o.kind with
    | .help => .error .help
    | .version => .error .version
    | _ => .ok ⟨← store given o "true", .none⟩

/-- Adds options that are written as letters behind one hyphen. What follows the letter
of an option with a value is its value. -/
def addLetters (options : List CommandOption) (scan : Scan) : List Char → Except Fault Scan
  | [] => .ok scan
  | letter :: rest =>
    match options.find? (·.letter == some letter) with
    | none => .error .unknownOption
    | some o =>
      if o.kind.takesValue then
        match rest with
        | [] => addOption scan o none
        | '=' :: value => addOption scan o (some (String.ofList value))
        | value => addOption scan o (some (String.ofList value))
      else
        match addOption scan o none with
        | .ok scan => addLetters options scan rest
        | .error fault => .error fault

/-- Adds an option that is written with its name behind two hyphens. A value is
attached by an equals sign. -/
def addNamed (options : List CommandOption) (scan : Scan) (written : List Char) :
    Except Fault Scan :=
  let name := written.takeWhile (· != '=')
  let attached :=
    match written.drop name.length with
    | [] => none
    | _ :: value => some (String.ofList value)
  match options.find? (·.name == String.ofList name) with
  | some o => addOption scan o attached
  | none => .error .unknownOption

/-- What an argument is, before the options end. -/
inductive Argument where
  /-- Two hyphens alone: only operands follow. -/
  | terminator
  | named (written : List Char)
  | letters (written : List Char)
  /-- Anything else; one hyphen alone is a word too. -/
  | word

/-- Tells what an argument is. -/
def Argument.of (argument : String) : Argument :=
  match argument.toList with
  | ['-', '-'] => .terminator
  | '-' :: '-' :: rest => .named rest
  | '-' :: c :: rest => .letters (c :: rest)
  | _ => .word

/-- Adds the options of an argument that is no word; words and the terminator are left
to the level. -/
def addArgument (options : List CommandOption) (scan : Scan) : Argument → Except Fault Scan
  | .named written => addNamed options scan written
  | .letters written => addLetters options scan written
  | .terminator => .ok scan
  | .word => .ok scan

/-- Adds a word behind an option that awaits its value, or as an operand. -/
def addWord (scan : Scan) (word : String) : Except Fault Scan :=
  match scan.pending with
  | .awaiting o => .ok ⟨scan.given, .holding o word⟩
  | _ => addOperand scan word

/-- Puts what the environment holds in the place of options that are not given. -/
def addVariables (environment : List (String × String)) (given : Given)
    (options : List CommandOption) : Given :=
  options.foldl (fun given o =>
    match o.standIn.bind fun name => environment.lookup name with
    | some value =>
      if given.options.any (·.1 == o.name) then given
      else { given with options := given.options ++ [(o.name, value)] }
    | none => given) given

namespace Given

/-- The value of an option. -/
def value? (given : Given) (name : String) : Option String := given.options.lookup name

/-- The value of an option that has to be given. -/
def value (given : Given) (name : String) : Except Fault String :=
  match given.value? name with
  | some value => .ok value
  | none => .error .missingArgument

/-- Whether a flag is on. -/
def flag (given : Given) (name : String) : Bool := (given.value? name).isSome

end Given

end Deposit.CommandLine
