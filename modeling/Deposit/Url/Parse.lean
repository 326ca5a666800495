import Deposit.Text.Blank
import Deposit.Url.Basic

/-!
Reading URLs, by the rules of the web.

Controls and spaces around the text do not count, tabs and line ends nowhere. What
a part may not hold is percent-encoded, dots in the path are resolved, and a text
that has no scheme or no valid host is no URL.
-/

namespace Deposit.Url

/-! ### What stands for itself -/

/-- Characters of a fragment. -/
def inFragment (c : Char) : Bool := isPrintableAscii c && !(" \"<>\x60".toList.contains c)

/-- Characters of a path. -/
def inPath (c : Char) : Bool := inFragment c && !("#?\x7b\x7d".toList.contains c)

/-- Characters of a user name or password. -/
def inUserinfo (c : Char) : Bool := inPath c && !("/:;=@[\\]^|".toList.contains c)

/-- Characters of a query. -/
def inQuery (special : Bool) (c : Char) : Bool :=
  isPrintableAscii c && !(" \"#<>".toList.contains c) && !(special && c == '\'')

/-! ### Scheme -/

/-- The scheme, in lower case, and the text behind its colon. -/
def scheme? (text : List Char) : Option (String × List Char) :=
  match text with
  | [] => none
  | c :: _ =>
    if c.isAlpha then
      match Split.first? ':' text with
      | none => none
      | some (scheme, rest) =>
        if scheme.all fun c => c.isAlphanum || c == '+' || c == '-' || c == '.' then
          some (String.ofList (scheme.map Char.toLower), rest)
        else none
    else none

/-! ### Authority -/

/-- Whether a character ends the authority. -/
def endsAuthority (special : Bool) (c : Char) : Bool :=
  c == '/' || c == '?' || c == '#' || (special && c == '\\')

/-- What stands before and behind the last `@`. -/
def atLastSign? (text : List Char) : Option (List Char × List Char) :=
  (Split.first? '@' text.reverse).map fun (behind, before) => (before.reverse, behind.reverse)

/-- User name and password. -/
def userinfo (text : List Char) : String × String :=
  let encode (part : List Char) := String.ofList (Percent.encode inUserinfo part)
  match Split.first? ':' text with
  | none => (encode text, "")
  | some (name, password) => (encode name, encode password)

/-- Splits host and port at the first colon that is not in brackets. -/
def atPort (inBrackets : Bool) : List Char → List Char × Option (List Char)
  | [] => ([], none)
  | c :: rest =>
    if c == ':' && !inBrackets then ([], some rest)
    else
      let (host, port) := atPort (if c == '[' then true else if c == ']' then false else inBrackets) rest
      (c :: host, port)

/-- A port: none if there are no digits or it is the scheme's own. The outer
`none` is for other characters and numbers beyond 16 bits. -/
def port? (scheme : String) (digits : List Char) : Option (Option Nat) :=
  match numeral? 10 0 digits with
  | none => none
  | some n =>
    if 65535 < n then none
    else if digits.isEmpty || defaultPort? scheme = some n then some none
    else some (some n)

/-! ### Path -/

/-- Whether a segment stands for the place above. -/
def isDoubleDot (segment : String) : Bool :=
  ["..", "%2e.", ".%2e", "%2e%2e"].contains (Lowercase.ascii segment)

/-- Whether a segment stands for the place itself. -/
def isSingleDot (segment : String) : Bool := [".", "%2e"].contains (Lowercase.ascii segment)

/-- Whether a text is a letter and one of the marks of a drive. -/
def isDrive (text : List Char) : Bool :=
  match text with
  | [c, d] => c.isAlpha && (d == ':' || d == '|')
  | _ => false

/-- Takes the last segment off, but leaves the drive of a file. -/
def goUp (file : Bool) (done : List String) : List String :=
  match done with
  | [drive] => if file && isDrive drive.toList && drive.endsWith ":" then done else []
  | _ => done.dropLast

/-- Resolves the segments one by one behind those in `done`. A dot segment at the
end leaves a slash there. -/
def resolve (file : Bool) (done : List String) : List String → List String
  | [] => done
  | s :: rest =>
    if isDoubleDot s then
      let done := goUp file done
      if rest.isEmpty then done ++ [""] else resolve file done rest
    else if isSingleDot s then
      if rest.isEmpty then done ++ [""] else resolve file done rest
    else if file && done.isEmpty && isDrive s.toList then
      resolve file [String.ofList (s.toList.take 1) ++ ":"] rest
    else resolve file (done ++ [s]) rest

/-- The segments of a text, encoded. -/
def rawSegments (special : Bool) (text : List Char) : List String :=
  let slashes := if special then text.map fun c => if c == '\\' then '/' else c else text
  (Split.pieces '/' slashes).map fun s => String.ofList (Percent.encode inPath s)

/-- The path of a text behind its first slash. A file's path does not begin with
empty segments. -/
def pathOf (scheme : String) (text : List Char) : Path :=
  let special := isSpecial scheme
  let file := scheme == "file"
  let segments := resolve file [] (rawSegments special text)
  if file then
    let kept := segments.dropWhile String.isEmpty
    .segments (if kept.isEmpty then [""] else kept)
  else .segments segments

/-! ### URLs -/

/-- Splits off query and fragment, encoded. -/
def tail (special : Bool) (text : List Char) : List Char × Option String × Option String :=
  let (front, fragment) :=
    match Split.first? '#' text with
    | some (front, fragment) => (front, some fragment)
    | none => (text, none)
  let (front, query) :=
    match Split.first? '?' front with
    | some (front, query) => (front, some query)
    | none => (front, none)
  (front, query.map fun q => String.ofList (Percent.encode (inQuery special) q),
    fragment.map fun f => String.ofList (Percent.encode inFragment f))

/-- The path behind an authority. -/
def pathBehind (scheme : String) (text : List Char) : Path :=
  match text with
  | [] => if isSpecial scheme then .segments [""] else .segments []
  | c :: rest =>
    if c == '/' || (isSpecial scheme && c == '\\') then pathOf scheme rest else pathOf scheme text

/-- A URL with an authority, from the text behind the two slashes. -/
def withAuthority? (scheme : String) (front : List Char) (query fragment : Option String) :
    Option Url := do
  let special := isSpecial scheme
  let authority := front.takeWhile (!endsAuthority special ·)
  let rest := front.drop authority.length
  let (user, hostAndPort) := (atLastSign? authority).getD ([], authority)
  let (username, password) := userinfo user
  let (hostChars, portChars) := atPort false hostAndPort
  let behindHost := !rest.isEmpty || query.isSome || fragment.isSome
  if authority.contains '@' && user.isEmpty && hostAndPort.isEmpty && behindHost then none
  else if hostChars.isEmpty && (special || portChars.isSome) then none
  else
    -- A backslash ends the port of every scheme.
    let digits := (portChars.getD []).takeWhile (· != '\\')
    let behind := (portChars.getD []).drop digits.length
    let host ← if special then Host.parse? hostChars else Host.parsePlain? hostChars
    let port ← port? scheme digits
    if host = .empty && !(username.isEmpty && password.isEmpty) then none
    else
      pure { scheme, username, password, host := some host, port,
             path := pathBehind scheme (behind ++ rest), query, fragment }

/-- The URL of a file, from the text behind the scheme. -/
def file? (front : List Char) (query fragment : Option String) : Option Url :=
  let ofPath (host : Host) (path : Path) : Url :=
    ⟨"file", "", "", some host, none, path, query, fragment⟩
  let slash (c : Char) := c == '/' || c == '\\'
  match front with
  | a :: b :: rest =>
    if slash a && slash b then
      let name := rest.takeWhile (!slash ·)
      let behind := rest.drop name.length
      if isDrive name then some (ofPath .empty (pathOf "file" rest))
      else if name.isEmpty then some (ofPath .empty (pathBehind "file" behind))
      else
        match Host.parse? name with
        | none => none
        | some host =>
          let path := pathBehind "file" behind
          let host := if host = .domain "localhost" then .empty else host
          match path with
          | .segments (drive :: _) =>
            if isDrive drive.toList then some (ofPath .empty path) else some (ofPath host path)
          | _ => some (ofPath host path)
    else some (ofPath .empty (pathBehind "file" front))
  | _ => some (ofPath .empty (pathBehind "file" front))

/-- A URL without an authority. -/
def withoutAuthority (scheme : String) (front : List Char) (query fragment : Option String) : Url :=
  let path :=
    match front with
    | '/' :: rest => pathOf scheme rest
    | _ => .plain (String.ofList (Percent.encode isPrintableAscii front))
  ⟨scheme, "", "", none, none, path, query, fragment⟩

/-- Whether a character does not count at the ends of a URL. -/
def isMargin (c : Char) : Bool := c.toNat ≤ 0x20

/-- The characters of a text that count. -/
def cleaned (text : String) : List Char :=
  (Blank.trimBy isMargin text.toList).filter fun c => !(c == '\t' || c == '\n' || c == '\r')

/-- Reads a URL; `none` if the text is none. -/
def parse? (text : String) : Option Url := do
  let (scheme, rest) ← scheme? (cleaned text)
  let special := isSpecial scheme
  let (front, query, fragment) := tail special rest
  if scheme = "file" then file? front query fragment
  else if special then
    withAuthority? scheme (front.dropWhile fun c => c == '/' || c == '\\') query fragment
  else
    match front with
    | '/' :: '/' :: front => withAuthority? scheme front query fragment
    | _ => pure (withoutAuthority scheme front query fragment)

end Deposit.Url
