/-!
Failures of reading and writing files.
-/

namespace Deposit

/-- A failure reported by the file system: its kind, and its text. -/
structure FileError where
  kind : String
  message : String
  deriving DecidableEq, Repr, Inhabited

namespace FileError

/-- There is no file of that name. -/
def notFound : FileError := ⟨"NotFound", "No such file or directory (os error 2)"⟩

/-- The name is a directory's. -/
def isDirectory : FileError := ⟨"IsADirectory", "Is a directory (os error 21)"⟩

/-- The bytes of the file are no text. -/
def notText : FileError := ⟨"InvalidData", "stream did not contain valid UTF-8"⟩

/-- The end of the request is no position of 64 bits. -/
def outOfRange : FileError := ⟨"InvalidInput", "position out of range"⟩

end FileError

end Deposit
