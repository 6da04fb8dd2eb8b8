import EntityResolver.Url.Basic
import EntityResolver.Url.Path

/-!
Reading URLs, as browsers do: what can be understood is accepted and brought to its normal form.
-/

set_option autoImplicit false

namespace EntityResolver.Url

/-- Drops spaces and control characters at both ends, and tabs and line breaks everywhere. -/
def cleaned (text : List Char) : List Char :=
  let isOuter (c : Char) : Bool := decide (c ≤ ' ')
  (((text.dropWhile isOuter).reverse.dropWhile isOuter).reverse).filter fun c =>
    c != '\t' && c != '\n' && c != '\r'

def isSchemeChar (c : Char) : Bool :=
  Text.isAsciiLetter c || Text.isAsciiDigit c || c == '+' || c == '-' || c == '.'

/-- A scheme, in lower case, and what follows its colon. -/
def readScheme? (text : List Char) : Option (String × List Char) :=
  match text.takeWhile isSchemeChar, text.dropWhile isSchemeChar with
  | first :: scheme, ':' :: rest =>
      if Text.isAsciiLetter first then
        some (String.ofList ((first :: scheme).map Text.asciiLower), rest)
      else none
  | _, _ => none

def isSlash (kind : SchemeKind) (c : Char) : Bool :=
  c == '/' || (kind.takesBackslash && c == '\\')

/-- The character ends the part of a URL that names the host. -/
def endsAuthority (kind : SchemeKind) (c : Char) : Bool :=
  isSlash kind c || c == '?' || c == '#'

/-- What follows the slashes in front of the host. Web addresses may have any number of them. -/
def afterSlashes? (kind : SchemeKind) (text : List Char) : Option (List Char) :=
  match kind, text with
  | .web, text => some (text.dropWhile (isSlash kind))
  | _, first :: second :: rest =>
      if isSlash kind first && isSlash kind second then some rest else none
  | _, _ => none

/-- The user in front of the last at sign, and what follows it. -/
def splitUser (authority : List Char) : Option (List Char) × List Char :=
  let host := (authority.reverse.takeWhile (· != '@')).reverse
  if host.length = authority.length then (none, authority)
  else (some (authority.take (authority.length - host.length - 1)), host)

def readUser (text : List Char) : String × Option String :=
  let name := String.ofList (escape userEscapes (text.takeWhile (· != ':')))
  match text.dropWhile (· != ':') with
  | _ :: c :: password => (name, some (String.ofList (escape userEscapes (c :: password))))
  | _ => (name, none)

/-- The text up to a colon that is not inside brackets, and the rest from that colon on. -/
def splitHost (inBrackets : Bool) : List Char → List Char × List Char
  | [] => ([], [])
  | c :: rest =>
      if c = ':' ∧ !inBrackets then ([], c :: rest)
      else
        let (host, behind) := splitHost (if c = '[' then true else if c = ']' then false
          else inBrackets) rest
        (c :: host, behind)

/-- The number behind the colon of a host, and what follows it up to the path. Without digits there
is no number. -/
def readPortNumber (scheme : String) : List Char → Except UrlError (Option Nat × List Char)
  | ':' :: text =>
      let digits := text.takeWhile Text.isAsciiDigit
      let rest := text.dropWhile Text.isAsciiDigit
      let number := Text.numberOf 10 digits
      if 65535 < number then .error .badPortNumber
      else if rest.isEmpty || rest.head? == some '\\' then
        .ok (if digits.isEmpty || usualPortNumber? scheme == some number then none
          else some number, rest)
      else .error .badPortNumber
  | rest => .ok (none, rest)

/-- A path. Only under other schemes may it be empty. -/
def readPath (kind : SchemeKind) (text : List Char) : List (List Char) :=
  let slashes := text.map fun c => if isSlash kind c then '/' else c
  match slashes with
  | '/' :: rest => Path.segments rest
  | rest => Path.segments rest

/-- A host, which must be there. Without one, a URL of another scheme has room for it if it names a
user or if a colon or, behind an at sign, anything else follows. -/
def readHost (kind : SchemeKind) (user : Option (List Char)) (atEnd : Bool)
    (host behind : List Char) : Except UrlError Host :=
  if host.isEmpty then
    match kind with
    | .web => .error .emptyHost
    | .file => .error .noHost
    | .other =>
        let isWritten := user.any fun text => readUser text != ("", none)
        let isBare := user == some [] && !atEnd
        .error (if !behind.isEmpty || isWritten || isBare then .emptyHost else .noHost)
  else Host.read kind.takesBackslash host

/-- The host of a file. A drive is no host, and neither is the machine itself under its name. -/
def readFileHost (text : List Char) : Except UrlError Host := do
  if text.isEmpty || Path.isDrive text then .error .noHost
  else
    let host ← Host.read true text
    if host = .name "localhost" then .error .noHost else .ok host

def withRest (url : Url) (kind : SchemeKind) (text : List Char) : Except UrlError Url :=
  let isInPath (c : Char) : Bool := c != '?' && c != '#'
  let path := text.takeWhile isInPath
  let (query, fragment) : Option (List Char) × Option (List Char) :=
    match text.dropWhile isInPath with
    | '?' :: rest =>
        (some (rest.takeWhile (· != '#')),
          match rest.dropWhile (· != '#') with
          | _ :: fragment => some fragment
          | [] => none)
    | _ :: fragment => (none, some fragment)
    | [] => (none, none)
  let segments := readPath kind path
  if kind = .file ∧ segments.head?.any Path.isDrive then .error .noHost
  else
    let kept := if kind = .file then segments.dropWhile List.isEmpty else segments
    let marks := if kind.takesBackslash then '\'' :: queryEscapes else queryEscapes
    .ok { url with
      path := if kind = .other ∧ path.isEmpty then "" else Path.render kept
      query := query.map fun query => String.ofList (escape marks query)
      fragment := fragment.map fun fragment => String.ofList (escape fragmentEscapes fragment) }

def read (text : String) : Except UrlError Url := do
  let some (scheme, rest) := readScheme? (cleaned text.toList) | .error .noScheme
  let kind := SchemeKind.ofScheme scheme
  let some rest := afterSlashes? kind rest | .error .noHost
  let authority := rest.takeWhile fun c => !endsAuthority kind c
  let rest := rest.dropWhile fun c => !endsAuthority kind c
  if kind = .file then
    let host ← readFileHost authority
    withRest ⟨scheme, "", none, host, none, "", none, none⟩ kind rest
  else
    let (user, address) := splitUser authority
    let (hostText, behind) := splitHost false address
    let host ← readHost kind user rest.isEmpty hostText behind
    let (portNumber, tail) ← readPortNumber scheme behind
    let (name, password) := readUser (user.getD [])
    withRest ⟨scheme, name, password, host, portNumber, "", none, none⟩ kind (tail ++ rest)

end EntityResolver.Url
