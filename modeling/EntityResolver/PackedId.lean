/-!
Ids made of several parts, packed into one text.

The parts are joined with `|`; inside a part `|` and `\` are preceded by `\`.
-/

set_option autoImplicit false

namespace EntityResolver.PackedId

/-- Stands between two parts. -/
def separator : Char := '|'

/-- Makes the separator, or itself, part of a part. -/
def escape : Char := '\\'

def needsEscape (c : Char) : Bool :=
  c == separator || c == escape

def escapePart : List Char → List Char
  | [] => []
  | c :: rest => if needsEscape c then escape :: c :: escapePart rest else c :: escapePart rest

def packChars : List (List Char) → List Char
  | [] => []
  | [part] => escapePart part
  | part :: rest => escapePart part ++ separator :: packChars rest

def pack (parts : List String) : String :=
  String.ofList (packChars (parts.map String.toList))

inductive Fault where
  /-- An escape stands before a character that needs none. -/
  | badEscape (c : Char)
  /-- An escape ends the text. -/
  | danglingEscape
  /-- The text has another number of parts than its reader needs. -/
  | partCount (expected found : Nat)
  deriving DecidableEq, Repr

def Fault.message : Fault → String
  | .badEscape c => "invalid escape character '" ++ c.toString ++ "'"
  | .danglingEscape => "dangling escape character"
  | .partCount expected found =>
      "expected " ++ toString expected ++ " parts, found " ++ toString found

/-- Puts a character in front of the first part. -/
def pushFront (c : Char) : List (List Char) → List (List Char)
  | [] => [[c]]
  | part :: rest => (c :: part) :: rest

/-- The parts of a packed text. -/
def unpackChars : List Char → Except Fault (List (List Char))
  | [] => .ok [[]]
  | c :: rest =>
      if c = escape then
        match rest with
        | [] => .error .danglingEscape
        | escaped :: tail =>
            if needsEscape escaped then (unpackChars tail).map (pushFront escaped)
            else .error (.badEscape escaped)
      else if c = separator then (unpackChars rest).map ([] :: ·)
      else (unpackChars rest).map (pushFront c)

/-- Splits an id into its parts, as many as `expected` when that is given. -/
def unpack (id : String) (expected : Option Nat) : Except Fault (List String) := do
  let parts ← unpackChars id.toList
  match expected with
  | some count =>
      if parts.length = count then pure (parts.map String.ofList)
      else throw (.partCount count parts.length)
  | none => pure (parts.map String.ofList)

end EntityResolver.PackedId
