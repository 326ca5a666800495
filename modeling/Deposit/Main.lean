import Deposit.CommandLine.Run

/-!
The program: reads the command line, the environment and files, and prints.

It has no connection to servers of its own, so every request goes unanswered.
-/

namespace Deposit.Program

open CommandLine

/-- What is printed for `--help`. -/
def usage : String :=
  "Publish Whole Tale packages to DataONE\n\n" ++
    "Usage: tale-publish [OPTIONS] <COMMAND>\n\n" ++
    "Commands:\n" ++
    "  publish   Publish a tale's items as a DataONE package\n" ++
    "  classify  Report where each item's content lives without uploading anything\n" ++
    "  help      Print this message or the help of the given subcommand(s)\n\n" ++
    "Options:\n" ++
    "  -l, --log-level <LOG_LEVEL>  Log level (trace, debug, info, warn, error) [default: info]\n" ++
    "  -h, --help                   Print help\n" ++
    "  -V, --version                Print version\n"

/-- The wording of a fault in the command line. -/
def faultText : Fault → String
  | .help => usage
  | .version => "tale-publish 0.1.0\n"
  | .nothing => usage
  | .missingCommand => "error: a subcommand is required\n"
  | .unknownCommand => "error: unrecognized subcommand\n"
  | .unknownOption => "error: unexpected argument found\n"
  | .missingArgument => "error: required arguments were not provided\n"
  | .missingValue => "error: a value is required\n"
  | .unexpectedValue => "error: unexpected value found\n"
  | .repeatedOption => "error: an argument cannot be used multiple times\n"
  | .invalidValue => "error: invalid value\n"

/-- Whether a fault is an answer to what was asked. -/
def isAnswer : Fault → Bool
  | .help | .version => true
  | _ => false

/-- The variables that settings are read from. -/
def settingNames : List String :=
  ["GIRDER_API_URL", "GIRDER_TOKEN", "DATAONE_NODE", "DATAONE_TOKEN", "TALE_PUBLISH_NETWORK",
   "TALE_PUBLISH_LICENSE_DIR", "TALE_PUBLISH_TIMEOUT_SECS", "TALE_PUBLISH_USER_AGENT"]

/-- Reads the variables that are set. -/
def readEnvironment : IO Environment :=
  settingNames.filterMapM fun name => do
    let value ← IO.getEnv name
    pure (value.map fun value => (name, value))

/-- The failure that reading a file ended with. -/
def fileError : IO.Error → FileError
  | .noFileOrDirectory .. => .notFound
  | .inappropriateType .. => .isDirectory
  | error => ⟨"Other", error.toString⟩

/-- Reads a file. -/
def readFile (path : String) : IO (String × Except FileError Bytes) := do
  try
    let content ← IO.FS.readBinFile path
    pure (path, .ok content.toList)
  catch error => pure (path, .error (fileError error))

/-- The files that a command may read. -/
def filesOf (environment : Environment) : Command → List String
  | .publish arguments =>
    let directory := arguments.licenseDirectory.getD
      ((environment.lookup "TALE_PUBLISH_LICENSE_DIR").getD Config.default.licenseDirectory)
    arguments.provenanceFile.toList ++ License.supported.map (·.pathIn directory)
  | .classify _ => []

/-- A file that was read before. -/
def fileAmong (files : List (String × Except FileError Bytes)) (path : String) :
    Except FileError Bytes :=
  (files.lookup path).getD (.error .notFound)

/-- A machine with some files, and identifiers in the order of their creation. -/
def machine (files : List (String × Except FileError Bytes)) : Machine where
  licenseFile _ path := fileAmong files path
  scratchFile _ := .ok ()
  nextPid session := .ofInt (session.creations.length + 1)
  elapsed _ := .zero

/-- Follows the command line, and tells how it ended. -/
def follow (arguments : List String) : IO UInt32 := do
  let environment ← readEnvironment
  match Invocation.parse environment arguments with
  | .error fault =>
    if isAnswer fault then
      IO.print (faultText fault)
      pure 0
    else
      IO.eprint (faultText fault)
      pure 2
  | .ok invocation =>
    let files ← (filesOf environment invocation.command).mapM readFile
    let surroundings : Surroundings :=
      { environment
        file := fileAmong files
        transport := fun _ _ => none
        machine := machine files
        internal := false }
    match run surroundings invocation.command with
    | .ok printed =>
      IO.print printed
      pure 0
    | .error failure =>
      IO.eprintln ("Error: " ++ failure.message)
      pure 1

end Deposit.Program

/-- Runs the program. -/
def main (arguments : List String) : IO UInt32 := Deposit.Program.follow arguments
