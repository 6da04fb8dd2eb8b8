import EntityResolver.Calendar
import EntityResolver.Json.Basic
import EntityResolver.MatchText
import EntityResolver.Schema.DataType

/-!
Scalar values: what a field holds that refers to no entity.
-/

set_option autoImplicit false

namespace EntityResolver

structure Coords where
  lat : Binary64
  long : Binary64
  deriving DecidableEq, Repr

inductive Scalar where
  | null
  | bool (flag : Bool)
  /-- An integer of a signed 64-bit word. -/
  | int (value : Int)
  | decimal (value : Binary64)
  | str (text : String)
  | date (value : Calendar.Date)
  | dateTime (value : Calendar.DateTime)
  | coords (value : Coords)
  | matchText (value : MatchText)
  | list (items : List Scalar)
  | object (members : List (String × Scalar))
  deriving Inhabited

namespace Scalar

mutual

/-- A document as it is. An integer beyond the signed words becomes the nearest double. -/
def ofJson : Json → Scalar
  | .null => .null
  | .bool flag => .bool flag
  | .int value => if value ≤ Json.greatestSigned then .int value else .decimal (.ofInt value)
  | .float value => .decimal value
  | .str text => .str text
  | .array items => .list (ofItems items)
  | .object members => .object (ofMembers members)

def ofItems : List Json → List Scalar
  | [] => []
  | item :: rest => ofJson item :: ofItems rest

def ofMembers : List (String × Json) → List (String × Scalar)
  | [] => []
  | (key, value) :: rest => (key, ofJson value) :: ofMembers rest

end

def partDocument (part : MatchPart) : Json :=
  .object [("text", .str part.text), ("highlighted", .bool part.highlighted)]

def matchDocument (parts : MatchText) : Json :=
  .array (parts.map partDocument)

mutual

/-- The document that shows a value. Members stay in their order. -/
def document : Scalar → Json
  | .null => .null
  | .bool flag => .bool flag
  | .int value => .int value
  | .decimal value => .float value
  | .str text => .str text
  | .date value => .str value.render
  | .dateTime value => .str (value.renderWith "T")
  | .coords value => .object [("lat", .float value.lat), ("long", .float value.long)]
  | .matchText value => matchDocument value
  | .list items => .array (documentItems items)
  | .object members => .object (documentMembers members)

def documentItems : List Scalar → List Json
  | [] => []
  | item :: rest => document item :: documentItems rest

def documentMembers : List (String × Scalar) → List (String × Json)
  | [] => []
  | (key, value) :: rest => (key, document value) :: documentMembers rest

end

def isNull : Scalar → Bool
  | .null => true
  | _ => false

def asText? : Scalar → Option String
  | .str text => some text
  | _ => none

def asInt? : Scalar → Option Int
  | .int value => some value
  | _ => none

def asItems? : Scalar → Option (List Scalar)
  | .list items => some items
  | _ => none

end Scalar

def DataType.accepts : DataType → Scalar → Bool
  | .optional inner, value => value.isNull || inner.accepts value
  | .list item, value =>
      match value with
      | .list items => items.all item.accepts
      | _ => false
  | .enumeration members, .str text => members.contains text
  | .openEnumeration _, .str _ => true
  | .string, .str _ | .url, .str _ | .email, .str _ | .phoneNumber, .str _ => true
  | .int, .int _ => true
  | .bool, .bool _ => true
  | .decimal, .decimal _ | .decimal, .int _ => true
  | .date, .date _ => true
  | .dateTime, .dateTime _ => true
  | .coords, .coords _ => true
  | .matchText, .matchText _ => true
  | _, _ => false

end EntityResolver
