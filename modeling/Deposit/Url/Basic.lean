import Deposit.Url.Host

/-!
URLs: their parts, and their text.

The parts are kept in the normal form in which they are written, so the text of a
URL is its parts put together, and reading that text gives the same parts.
-/

namespace Deposit

open Url (Host)

/-- A path: segments behind slashes, or, without an authority and a slash in
front, a text of no structure. -/
inductive Url.Path where
  | segments (list : List String)
  | plain (text : String)
  deriving DecidableEq, Repr

/-- The parts of a URL. -/
structure Url where
  scheme : String
  username : String
  password : String
  /-- Absent if the URL has no authority. -/
  host : Option Host
  /-- Absent if it is the scheme's own. -/
  port : Option Nat
  path : Url.Path
  query : Option String
  fragment : Option String
  deriving DecidableEq, Repr

namespace Url

/-- The port that a scheme of the web uses by itself. -/
def defaultPort? (scheme : String) : Option Nat :=
  if scheme = "http" ∨ scheme = "ws" then some 80
  else if scheme = "https" ∨ scheme = "wss" then some 443
  else if scheme = "ftp" then some 21
  else none

/-- Whether a scheme is one of the web's. -/
def isSpecial (scheme : String) : Bool := (defaultPort? scheme).isSome || scheme == "file"

/-- The text of the host, if there is one that is not empty. -/
def hostText? (url : Url) : Option String :=
  match url.host with
  | none => none
  | some .empty => none
  | some host => some host.text

/-- User name and password, as they stand in front of the host. -/
def userinfoText (url : Url) : String :=
  if url.username.isEmpty && url.password.isEmpty then ""
  else url.username ++ (if url.password.isEmpty then "" else ":" ++ url.password) ++ "@"

/-- The part of a URL between the scheme and the path. A path that begins with an
empty segment and has no authority before it gets a segment that says so. -/
def authorityText (url : Url) : String :=
  match url.host with
  | some host =>
    "//" ++ url.userinfoText ++ host.text ++
      (match url.port with | some port => ":" ++ toString port | none => "")
  | none =>
    match url.path with
    | .segments ("" :: _ :: _) => "/."
    | _ => ""

/-- The text of a path. -/
def Path.text : Path → String
  | .segments list => String.join (list.map ("/" ++ ·))
  | .plain text => text

/-- The text of a URL. -/
def text (url : Url) : String :=
  url.scheme ++ ":" ++ url.authorityText ++ url.path.text ++
    (match url.query with | some query => "?" ++ query | none => "") ++
    (match url.fragment with | some fragment => "#" ++ fragment | none => "")

/-- The last segment of the path. -/
def lastSegment? (url : Url) : Option String :=
  match url.path with
  | .segments list => list.getLast?
  | .plain _ => none

/-- The URL without user name and password. -/
def withoutUserinfo (url : Url) : Url := { url with username := "", password := "" }

/-- Whether the scheme is `http` or `https`. -/
def isHttp (url : Url) : Bool := url.scheme == "http" || url.scheme == "https"

/-- The same place reached by `https`; `none` if the URL has another kind of
scheme or no host. A port that is the scheme's own is dropped. -/
def toHttps? (url : Url) : Option Url :=
  if isSpecial url.scheme && url.hostText?.isSome then
    some { url with scheme := "https", port := if url.port = some 443 then none else url.port }
  else none

end Url

end Deposit
