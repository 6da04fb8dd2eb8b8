import EntityResolver.Text.Quoted

/-!
Declared types of scalar fields.
-/

set_option autoImplicit false

namespace EntityResolver

inductive DataType where
  | string
  | int
  | bool
  | decimal
  | date
  | dateTime
  | url
  | email
  | phoneNumber
  | coords
  | matchText
  /-- One of the given members. -/
  | enumeration (members : List String)
  /-- One of the given members, or one that is not known yet. -/
  | openEnumeration (members : List String)
  | list (item : DataType)
  | optional (inner : DataType)
  deriving DecidableEq, Repr, Inhabited

/-- The name of a type in descriptions of a schema. -/
def DataType.label : DataType → String
  | .string => "String"
  | .int => "Int"
  | .bool => "Bool"
  | .decimal => "Decimal"
  | .date => "Date"
  | .dateTime => "DateTime"
  | .url => "Url"
  | .email => "Email"
  | .phoneNumber => "PhoneNumber"
  | .coords => "Coords"
  | .matchText => "MatchString"
  | .enumeration members => "Enum(" ++ Text.quotedList members ++ ")"
  | .openEnumeration members => "OpenEnum(" ++ Text.quotedList members ++ ")"
  | .list item => "List(" ++ item.label ++ ")"
  | .optional inner => "Optional(" ++ inner.label ++ ")"

end EntityResolver
