import EntityResolver.Url.Host

/-!
URLs that name a host.

Every part is held as it is written in the URL, escaped and in its normal form, so that a URL and
its text determine each other.
-/

set_option autoImplicit false

namespace EntityResolver

structure Url where
  scheme : String
  /-- The name of a user, empty if there is none. -/
  user : String
  password : Option String
  host : Host
  /-- The number behind the host, unless it is the usual one of the scheme. -/
  portNumber : Option Nat
  /-- Empty, or a text that starts with a slash. -/
  path : String
  query : Option String
  fragment : Option String
  deriving DecidableEq, Repr

namespace Url

inductive SchemeKind where
  | web
  | file
  | other
  deriving DecidableEq, Repr

def SchemeKind.ofScheme (scheme : String) : SchemeKind :=
  if ["http", "https", "ws", "wss", "ftp"].contains scheme then .web
  else if scheme == "file" then .file
  else .other

def SchemeKind.takesBackslash : SchemeKind → Bool
  | .other => false
  | _ => true

/-- The number behind the host that need not be written. -/
def usualPortNumber? (scheme : String) : Option Nat :=
  match scheme with
  | "http" | "ws" => some 80
  | "https" | "wss" => some 443
  | "ftp" => some 21
  | _ => none

def renderUser (url : Url) : String :=
  if url.user.isEmpty && url.password.isNone then ""
  else url.user ++ (url.password.elim "" fun password => ":" ++ password) ++ "@"

def render (url : Url) : String :=
  url.scheme ++ "://" ++ url.renderUser ++ url.host.render ++
    (url.portNumber.elim "" fun number => ":" ++ toString number) ++ url.path ++
    (url.query.elim "" fun query => "?" ++ query) ++
    (url.fragment.elim "" fun fragment => "#" ++ fragment)

end Url

end EntityResolver
