import EntityResolver.Remote.Basic
import EntityResolver.Selector.Parser
import EntityResolver.Text.Quoted

/-!
Remotes that answer from a list of prepared replies.

Each expectation is used up by the first call it admits. A strict script admits exactly the call
it names, and compares the parameter `fields` as a selector, so that the order of fields does not
matter; a loose one lets calls have further parameters.
-/

set_option autoImplicit false

namespace EntityResolver

/-- The parameter that carries a selector. -/
def fieldsParam : String := "fields"

structure Expectation where
  path : String
  params : Params
  reply : Reply

/-- How a script compares calls with its expectations, and what it says to a call that none of
them admits. -/
structure Script.Policy where
  admits : Expectation → Call → Bool
  refusal : Call → String

structure Script where
  policy : Script.Policy
  pending : List Expectation
  calls : List Call

namespace Script

/-- Both texts select the same fields, or are equal where one of them is no selector. -/
def sameFields (expected actual : String) : Bool :=
  match Selector.parseBasic expected, Selector.parseBasic actual with
  | .ok expected, .ok actual => expected.same actual
  | _, _ => expected == actual

def admitsParam (expected : Params) (name value : String) : Bool :=
  match expected.get? name with
  | none => false
  | some wanted => if name = fieldsParam then sameFields wanted value else wanted == value

def admitsExactly (expectation : Expectation) (call : Call) : Bool :=
  expectation.path == call.path && expectation.params.length == call.params.length &&
    call.params.all fun (name, value) => admitsParam expectation.params name value

def admitsLoosely (expectation : Expectation) (call : Call) : Bool :=
  expectation.path == call.path &&
    expectation.params.all fun (name, value) => call.params.get? name == some value

def Policy.strict : Policy where
  admits := admitsExactly
  refusal call :=
    "no scripted call matches " ++ call.path ++ " with " ++ Text.quotedEntries call.params

def Policy.loose : Policy where
  admits := admitsLoosely
  refusal call := "no reply for " ++ call.path

/-- Takes the first expectation that admits a call out of a list. -/
def take? (policy : Policy) (call : Call) :
    List Expectation → Option (Expectation × List Expectation)
  | [] => none
  | expectation :: rest =>
      if policy.admits expectation call then some (expectation, rest)
      else (take? policy call rest).map fun (taken, others) => (taken, expectation :: others)

def new (policy : Policy) (expectations : List Expectation) : Script :=
  ⟨policy, expectations, []⟩

def expect (script : Script) (expectation : Expectation) : Script :=
  { script with pending := script.pending ++ [expectation] }

def answer (script : Script) (call : Call) : Reply × Script :=
  let calls := script.calls ++ [call]
  match take? script.policy call script.pending with
  | some (expectation, others) =>
      (expectation.reply, { script with pending := others, calls := calls })
  | none => (.error (.unexpected (script.policy.refusal call)), { script with calls := calls })

def after (script : Script) (calls : List Call) : Script :=
  calls.foldl (fun script call => (script.answer call).2) script

def remote (script : Script) : Remote := fun earlier call =>
  ((script.after earlier).answer call).1

end Script

end EntityResolver
