/-!
The members of a package that are made for it, and not taken from storage.
-/

namespace Deposit

/-- A member made for the package. -/
inductive GeneratedFile where
  /-- The package-info document. -/
  | packageInfo
  /-- The text of the license. -/
  | license
  /-- The archive of the environment that the tale runs in. -/
  | environment
  deriving DecidableEq, Repr

namespace GeneratedFile

/-- All members made for a package. -/
def all : List GeneratedFile := [.packageInfo, .license, .environment]

/-- The word for the kind in counts of uploads. -/
def kind : GeneratedFile → String
  | .packageInfo => "package_info"
  | .license => "license"
  | .environment => "environment"

/-- The name of the file. -/
def fileName : GeneratedFile → String
  | .packageInfo => "tale.yml"
  | .license => "LICENSE"
  | .environment => "docker-environment.tar.gz"

/-- The member with a file name. -/
def ofFileName? (name : String) : Option GeneratedFile := all.find? (·.fileName == name)

/-- The format in the entry of the descriptive record. -/
def recordFormat : GeneratedFile → String
  | .packageInfo => "application/x-yaml"
  | .license => "text/plain"
  | .environment => "application/tar+gzip"

/-- The format that the file is uploaded with. -/
def uploadFormat : GeneratedFile → String
  | .packageInfo => "text/plain"
  | .license => "text/plain"
  | .environment => "application/tar+gzip"

/-- The description in the entry of the descriptive record. -/
def description : GeneratedFile → String
  | .packageInfo =>
    "A configuration file, holding information that is needed to " ++
      "reproduce the compute environment."
  | .license => "The package's licensing information."
  | .environment =>
    "Holds the dockerfile and additional configurations for the " ++
      "underlying compute environment. This environment was used as the " ++
      "base image, and includes the IDE that is used while running the Tale."

end GeneratedFile

end Deposit
