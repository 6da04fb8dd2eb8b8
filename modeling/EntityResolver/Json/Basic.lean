import EntityResolver.Binary64
import EntityResolver.OrderedMap

/-!
JSON documents.

A document that is read keeps the members of an object in the order of their keys, compared by code
points, and a key occurs once; a document that shows an entity has its members in the entity's
order. Whole numbers in the range of 64-bit words are integers and all others are doubles; an
integer never equals a double.
-/

set_option autoImplicit false

namespace EntityResolver

inductive Json where
  | null
  | bool (flag : Bool)
  | int (value : Int)
  | float (value : Binary64)
  | str (text : String)
  | array (items : List Json)
  | object (members : List (String × Json))
  deriving Inhabited

namespace Json

/-- Stores a member at its place among sorted members, over an older one of the same key. -/
def setMember (key : String) (value : Json) : List (String × Json) → List (String × Json)
  | [] => [(key, value)]
  | (name, old) :: rest =>
      if name = key then (key, value) :: rest
      else if key < name then (key, value) :: (name, old) :: rest
      else (name, old) :: setMember key value rest

/-- The object with the given members; of several with one key the last counts. -/
def ofMembers (members : List (String × Json)) : Json :=
  .object (members.foldl (fun sorted member => setMember member.1 member.2 sorted) [])

mutual

/-- The document with the members of every object in the order of their keys, and with null for the
doubles that are no numbers. -/
def sorted : Json → Json
  | .null => .null
  | .bool flag => .bool flag
  | .int value => .int value
  | .float value => if value.isFinite then .float value else .null
  | .str text => .str text
  | .array items => .array (sortedItems items)
  | .object members => ofMembers (sortedMembers members)

def sortedItems : List Json → List Json
  | [] => []
  | item :: rest => sorted item :: sortedItems rest

def sortedMembers : List (String × Json) → List (String × Json)
  | [] => []
  | (key, value) :: rest => (key, sorted value) :: sortedMembers rest

end

/-- The least integer that a document can hold. -/
def leastInt : Int := -(twoTo 63 : Int)

/-- The greatest integer that fits a signed word. -/
def greatestSigned : Int := twoTo 63 - 1

/-- The greatest integer that a document can hold. -/
def greatestInt : Int := twoTo 64 - 1

/-- The value under a key; other documents than objects have no keys. -/
def member? : Json → String → Option Json
  | .object members, key => OrderedMap.get? members key
  | _, _ => none

def isNull : Json → Bool
  | .null => true
  | _ => false

def asText? : Json → Option String
  | .str text => some text
  | _ => none

def asItems? : Json → Option (List Json)
  | .array items => some items
  | _ => none

def asBool? : Json → Option Bool
  | .bool flag => some flag
  | _ => none

def asInt? : Json → Option Int
  | .int value => some value
  | _ => none

def asDouble? : Json → Option Binary64
  | .int value => some (Binary64.ofInt value)
  | .float value => some value
  | _ => none

mutual

/-- Equality of documents. Doubles are compared by value, so the two zeros are equal. -/
def same : Json → Json → Bool
  | .null, .null => true
  | .bool x, .bool y => x == y
  | .int x, .int y => x == y
  | .float x, .float y => x.sameValue y
  | .str x, .str y => x == y
  | .array xs, .array ys => sameItems xs ys
  | .object xs, .object ys => sameMembers xs ys
  | _, _ => false

def sameItems : List Json → List Json → Bool
  | [], [] => true
  | x :: xs, y :: ys => same x y && sameItems xs ys
  | _, _ => false

def sameMembers : List (String × Json) → List (String × Json) → Bool
  | [], [] => true
  | (k, x) :: xs, (l, y) :: ys => k == l && same x y && sameMembers xs ys
  | _, _ => false

end

mutual

def documents : Json → List Json
  | .array items => .array items :: itemDocuments items
  | .object members => .object members :: memberDocuments members
  | leaf => [leaf]

def itemDocuments : List Json → List Json
  | [] => []
  | item :: rest => documents item ++ itemDocuments rest

def memberDocuments : List (String × Json) → List Json
  | [] => []
  | (_, value) :: rest => documents value ++ memberDocuments rest

end

end Json

end EntityResolver
