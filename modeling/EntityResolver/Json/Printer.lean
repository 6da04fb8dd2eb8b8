import EntityResolver.Decimal.Printer
import EntityResolver.Json.Basic

/-!
The text of a JSON document: compact, with no spaces, or laid out with two spaces per level.

In a text the quote, the backslash and the characters below U+0020 are escaped and nothing else. A
double that is no finite number is written as `null`.
-/

set_option autoImplicit false

namespace EntityResolver.Json

/-- One lower-case hexadecimal digit. -/
def hexDigit (value : Nat) : Char :=
  (Nat.toDigits 16 (value % 16)).headD '0'

/-- A character as it stands in a quoted text. -/
def escapeChar (c : Char) : List Char :=
  if c = '"' then ['\\', '"']
  else if c = '\\' then ['\\', '\\']
  else if c = '\n' then ['\\', 'n']
  else if c = '\r' then ['\\', 'r']
  else if c = '\t' then ['\\', 't']
  else if c.toNat = 8 then ['\\', 'b']
  else if c.toNat = 12 then ['\\', 'f']
  else if c.toNat < 32 then ['\\', 'u', '0', '0', hexDigit (c.toNat / 16), hexDigit c.toNat]
  else [c]

def quote (text : String) : String :=
  String.ofList ('"' :: text.toList.flatMap escapeChar ++ ['"'])

def renderDouble (x : Binary64) : String :=
  if x.isFinite then Decimal.render .document x else "null"

/-- The brackets of an object, spelt out so that they are plain characters. -/
def openBrace : String := "\x7b"

def closeBrace : String := "\x7d"

mutual

def render : Json → String
  | .null => "null"
  | .bool true => "true"
  | .bool false => "false"
  | .int value => toString value
  | .float value => renderDouble value
  | .str text => quote text
  | .array items => "[" ++ ",".intercalate (renderItems items) ++ "]"
  | .object members => openBrace ++ ",".intercalate (renderMembers members) ++ closeBrace

def renderItems : List Json → List String
  | [] => []
  | item :: rest => render item :: renderItems rest

def renderMembers : List (String × Json) → List String
  | [] => []
  | (key, value) :: rest => (quote key ++ ":" ++ render value) :: renderMembers rest

end

def newLine (level : Nat) : String :=
  String.ofList ('\n' :: List.replicate (2 * level) ' ')

/-- Lines between two brackets; an empty collection stays on one line. -/
def block (left right : String) (level : Nat) (lines : List String) : String :=
  if lines.isEmpty then left ++ right
  else left ++ newLine (level + 1) ++ ("," ++ newLine (level + 1)).intercalate lines ++
    newLine level ++ right

mutual

/-- The text of a document that stands at a level of indentation. -/
def renderIndented (level : Nat) : Json → String
  | .array items => block "[" "]" level (renderIndentedItems (level + 1) items)
  | .object members => block openBrace closeBrace level (renderIndentedMembers (level + 1) members)
  | .null => "null"
  | .bool true => "true"
  | .bool false => "false"
  | .int value => toString value
  | .float value => renderDouble value
  | .str text => quote text

def renderIndentedItems (level : Nat) : List Json → List String
  | [] => []
  | item :: rest => renderIndented level item :: renderIndentedItems level rest

def renderIndentedMembers (level : Nat) : List (String × Json) → List String
  | [] => []
  | (key, value) :: rest =>
      (quote key ++ ": " ++ renderIndented level value) :: renderIndentedMembers level rest

end

/-- The text of a document on several lines. -/
def renderPretty (document : Json) : String :=
  renderIndented 0 document

end EntityResolver.Json
