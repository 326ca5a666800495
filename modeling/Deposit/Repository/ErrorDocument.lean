import Deposit.Xml.Reader

/-!
The documents with which a repository refuses an object.

The root is an `error` element with the name of the error as an attribute; the
reason is the text of a `description` in it.
-/

namespace Deposit.ErrorDocument

/-- What has been read: the name, the description, and whether a description has
opened and not ended. -/
structure Reading where
  name : Option String
  description : String
  describing : Bool
  deriving DecidableEq, Repr

/-- Before the first event. -/
def Reading.start : Reading := ⟨none, "", false⟩

/-- The text of a raw value, if it can be read. -/
def readable (raw : Bytes) : Option String :=
  match Xml.readText raw with
  | .ok text => some text
  | .error _ => none

/-- A tag that opens: that of an error may give the name, and that of a description
begins the description. -/
def openTag (reading : Reading) (name attributes : Bytes) : Reading :=
  if name = Utf8.bytes "error" then
    match (Xml.attributes attributes).lookup (Utf8.bytes "name") with
    | some raw => { reading with name := readable raw }
    | none => reading
  else if name = Utf8.bytes "description" then { reading with describing := true }
  else reading

/-- One event; `none` if the description cannot be read. -/
def step (reading : Reading) : Xml.Event → Option Reading
  | .start name attributes => some (openTag reading name attributes)
  | .empty name attributes => some (openTag reading name attributes)
  | .text content =>
    if reading.describing then
      (readable content).map fun text => { reading with description := text }
    else some reading
  | .close name =>
    if name = Utf8.bytes "description" then some { reading with describing := false }
    else some reading
  | .other => some reading

/-- What is known at the end of events. -/
def readEvents (reading : Reading) : List Xml.Event → Option Reading
  | [] => some reading
  | event :: rest => (step reading event).bind (readEvents · rest)

/-- The name and the description in an error document; `none` for anything else. -/
def parse (body : String) : Option (String × String) :=
  match Xml.events (Utf8.bytes body) with
  | (_, some _) => none
  | (events, none) => do
    let reading ← readEvents .start events
    let name ← reading.name
    pure (name, reading.description)

end Deposit.ErrorDocument
