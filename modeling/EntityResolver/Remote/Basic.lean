import EntityResolver.Json.Syntax
import EntityResolver.OrderedMap

/-!
Calls to the remote API and their failures.

A remote is a function: it answers a call in view of all the calls made before it. Whatever a
remote does, consistent or not, is such a function.
-/

set_option autoImplicit false

namespace EntityResolver

/-- The parameters of a call, in the order in which they are sent. -/
abbrev Params : Type := OrderedMap String

structure Call where
  path : String
  params : Params
  deriving DecidableEq, Repr

inductive RemoteFailure where
  /-- The remote refused the call and said why. -/
  | badRequest (path : String) (code : Option String) (message : String) (param : Option String)
  | status (path : String) (status : Nat) (body : String)
  | network (path message : String)
  | decode (path message : String)
  | unexpected (message : String)
  deriving DecidableEq, Repr

namespace RemoteFailure

def message : RemoteFailure → String
  | .badRequest path _ message _ => "Bad request to " ++ path ++ ": " ++ message
  | .status path code body =>
      "Request to " ++ path ++ " failed with HTTP " ++ toString code ++ ": " ++ body
  | .network path message => "Network error calling " ++ path ++ ": " ++ message
  | .decode path message => "Cannot decode response of " ++ path ++ ": " ++ message
  | .unexpected message => "Unexpected call: " ++ message

def code? : RemoteFailure → Option String
  | .badRequest _ code _ _ => code
  | _ => none

def isClientError (status : Nat) : Bool :=
  decide (400 ≤ status) && decide (status < 500)

/-- What a response without success means. It is a refusal if its status blames the caller and its
body is an object with a `message`; the body may add a code and the name of a parameter. -/
def ofResponse (path : String) (status : Nat) (body : String) : RemoteFailure :=
  let details? : Option Json :=
    if isClientError status then Json.parse? Json.remoteLevels body else none
  let text? (key : String) : Option String :=
    details?.bind fun details => (details.member? key).bind Json.asText?
  match text? "message" with
  | some message => .badRequest path (text? "error") message (text? "param_name")
  | none => .status path status body

end RemoteFailure

abbrev Reply : Type := Except RemoteFailure Json

/-- Answers a call in view of the calls made before it, first call first. -/
abbrev Remote : Type := List Call → Call → Reply

end EntityResolver
