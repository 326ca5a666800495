import Deposit.CommandLine.Options

/-!
Invocations: what a command line asks for.

There are two commands. `publish` publishes a tale, and `classify` only tells where
the content of each item is. The options of each have a default, a variable of the
environment that stands in for them, or have to be given.
-/

namespace Deposit.CommandLine

/-- How storage and repository are reached. -/
structure Connection where
  storageUrl : Option String
  storageToken : String
  node : Option String
  network : Option Network
  deriving DecidableEq, Repr

/-- What is published, and how it is reported. -/
structure PublishArguments where
  items : List String
  taleId : String
  userId : String
  license : String
  repositoryToken : String
  licenseDirectory : Option String
  provenanceFile : Option String
  connection : Connection
  json : Bool
  metrics : Bool
  deriving DecidableEq, Repr

/-- What is classified, and how it is reported. -/
structure ClassifyArguments where
  items : List String
  connection : Connection
  json : Bool
  deriving DecidableEq, Repr

/-- A command with its arguments. -/
inductive Command where
  | publish (arguments : PublishArguments)
  | classify (arguments : ClassifyArguments)
  deriving DecidableEq, Repr

/-- A whole command line. -/
structure Invocation where
  command : Command
  logLevel : String
  deriving DecidableEq, Repr

/-- The license of a package if none is named. -/
def defaultLicense : String := "CC-BY-4.0"

/-- How much is logged if nothing is said. -/
def defaultLogLevel : String := "info"

/-! ### Levels -/

/-- The options of every level. -/
def commonOptions : List CommandOption :=
  [⟨"log-level", some 'l', .text, none⟩, ⟨"help", some 'h', .help, none⟩]

/-- The options in front of the command. -/
def rootOptions : List CommandOption := commonOptions ++ [⟨"version", some 'V', .version, none⟩]

/-- The options on storage and repository. -/
def connectionOptions : List CommandOption :=
  [⟨"girder-url", none, .text, some "GIRDER_API_URL"⟩,
   ⟨"girder-token", none, .text, some "GIRDER_TOKEN"⟩,
   ⟨"node", none, .text, some "DATAONE_NODE"⟩,
   ⟨"network", none, .network, none⟩]

/-- The options of `publish`. -/
def publishOptions : List CommandOption :=
  [⟨"tale-id", none, .text, none⟩,
   ⟨"user-id", none, .text, none⟩,
   ⟨"license", none, .text, none⟩,
   ⟨"dataone-token", none, .text, some "DATAONE_TOKEN"⟩,
   ⟨"license-dir", none, .path, none⟩,
   ⟨"prov-file", none, .path, none⟩,
   ⟨"json", none, .flag, none⟩,
   ⟨"metrics", none, .flag, none⟩] ++ connectionOptions ++ commonOptions

/-- The options of `classify`. -/
def classifyOptions : List CommandOption :=
  [⟨"json", none, .flag, none⟩] ++ connectionOptions ++ commonOptions

/-- The words that are commands; the last one explains the others. -/
inductive CommandName where
  | publish
  | classify
  | help
  deriving DecidableEq, Repr

/-- The command with a name. -/
def CommandName.ofText? (text : String) : Option CommandName :=
  if text = "publish" then some .publish
  else if text = "classify" then some .classify
  else if text = "help" then some .help
  else none

/-! ### Behind the command -/

/-- The options and operands behind a command. -/
def scanOperands (options : List CommandOption) (ended : Bool) (scan : Scan) :
    List String → Except Fault Given
  | [] => settle scan
  | argument :: rest =>
    if ended then
      match addOperand scan argument with
      | .ok scan => scanOperands options true scan rest
      | .error fault => .error fault
    else
      match Argument.of argument with
      | .terminator => scanOperands options true scan rest
      | .word =>
        match addWord scan argument with
        | .ok scan => scanOperands options false scan rest
        | .error fault => .error fault
      | other =>
        match addArgument options scan other with
        | .ok scan => scanOperands options false scan rest
        | .error fault => .error fault

/-- The connection that options give. -/
def connection (given : Given) : Except Fault Connection := do
  let storageToken ← given.value "girder-token"
  .ok
    { storageUrl := given.value? "girder-url"
      storageToken
      node := given.value? "node"
      network := (given.value? "network").bind fun name => (Network.ofText name).toOption }

/-- The operands, of which there has to be one. -/
def items (given : Given) : Except Fault (List String) :=
  if given.operands.isEmpty then .error .missingArgument else .ok given.operands

/-- The arguments of `publish`. -/
def publishArguments (given : Given) : Except Fault PublishArguments := do
  let items ← items given
  let taleId ← given.value "tale-id"
  let userId ← given.value "user-id"
  let repositoryToken ← given.value "dataone-token"
  let connection ← connection given
  .ok
    { items, taleId, userId, repositoryToken, connection
      license := (given.value? "license").getD defaultLicense
      licenseDirectory := given.value? "license-dir"
      provenanceFile := given.value? "prov-file"
      json := given.flag "json"
      metrics := given.flag "metrics" }

/-- The arguments of `classify`. -/
def classifyArguments (given : Given) : Except Fault ClassifyArguments := do
  let items ← items given
  let connection ← connection given
  .ok { items, connection, json := given.flag "json" }

/-- The arguments behind a command, and what they say about logging. -/
def behindCommand {α : Type} (options : List CommandOption) (read : Given → Except Fault α)
    (environment : List (String × String)) (arguments : List String) :
    Except Fault (α × Option String) := do
  let given ← scanOperands options false .start arguments
  let given := addVariables environment given options
  let result ← read given
  .ok (result, given.value? "log-level")

/-- The words behind `help`: at most the name of a command. -/
def explain (topics : List String) : Fault :=
  match topics with
  | [] => .help
  | [topic] => if (CommandName.ofText? topic).isSome then .help else .unknownCommand
  | _ => .unknownCommand

/-- A command with what follows its name. -/
def readCommand (name : CommandName) (environment : List (String × String))
    (arguments : List String) : Except Fault (Command × Option String) :=
  match name with
  | .publish => do
    let (read, logLevel) ← behindCommand publishOptions publishArguments environment arguments
    .ok (.publish read, logLevel)
  | .classify => do
    let (read, logLevel) ← behindCommand classifyOptions classifyArguments environment arguments
    .ok (.classify read, logLevel)
  | .help => .error (explain arguments)

/-! ### The whole line -/

/-- The end of a command line without a command. -/
def withoutCommand (scan : Scan) : Fault :=
  match settle scan with
  | .error fault => fault
  | .ok given => if given.options.isEmpty then .nothing else .missingCommand

/-- The options in front of the command, and the command. A level of logging that is
given behind the command counts before one in front of it. -/
def scanRoot (environment : List (String × String)) (scan : Scan) :
    List String → Except Fault Invocation
  | [] => .error (withoutCommand scan)
  | argument :: rest =>
    match Argument.of argument, scan.pending with
    | .word, .awaiting o => scanRoot environment ⟨scan.given, .holding o argument⟩ rest
    | .word, _ =>
      match CommandName.ofText? argument with
      | none => .error .unknownCommand
      | some name => do
        let (command, inner) ← readCommand name environment rest
        let given ← settle scan
        let logLevel := (inner.or (given.value? "log-level")).getD defaultLogLevel
        .ok ⟨command, logLevel⟩
    | .terminator, _ =>
      -- Behind the end of the options no command can follow.
      match rest with
      | [] => .error (withoutCommand scan)
      | word :: _ =>
        if (CommandName.ofText? word).isSome then .error .unknownOption else .error .unknownCommand
    | other, _ =>
      match addArgument rootOptions scan other with
      | .ok scan => scanRoot environment scan rest
      | .error fault => .error fault

/-- Reads a command line, without the program's name. -/
def Invocation.parse (environment : List (String × String)) (arguments : List String) :
    Except Fault Invocation :=
  scanRoot environment .start arguments

end Deposit.CommandLine
