import EntityResolver.Schema.Basic
import EntityResolver.Selector.Token

/-!
Reading the text of a selector.

    selector := field ('|' field)* | '*'
    field    := name ['*'] ['[' selector ']']

Read for a class, a name is a field of the class, brackets and stars belong to fields that refer to
entities, a field without brackets takes the default fields of the class it refers to, and `*` alone
means all fields. A star behind a name makes the field recursive in its own subselector, so the
class referred to must have the field as well. The empty text selects nothing.

The basic form knows names and brackets only, and needs no schema.
-/

set_option autoImplicit false

namespace EntityResolver.Selector

/-- Why a text is no selector. Where a token is unexpected, `none` is the end of the text. -/
inductive Fault where
  | unexpectedCharacter (c : Char)
  | unexpected (found : Option Token)
  | expectedClosing (found : Option Token)
  | expectedName (found : Option Token)
  | unknownField (cls field : String)
  | scalarWithFields (field : String)
  | noFieldsInBrackets (field : String)
  | recursiveScalar (field : String)
  | noSuchFieldBelow (field cls : String)
  deriving DecidableEq, Repr

def Fault.message : Fault → String
  | .unexpectedCharacter c => "unexpected character '" ++ c.toString ++ "'"
  | .unexpected found => "unexpected " ++ describe found
  | .expectedClosing found => "expected ']' but found " ++ describe found
  | .expectedName found => "expected a field name but found " ++ describe found
  | .unknownField cls field => "entity class '" ++ cls ++ "' has no field '" ++ field ++ "'"
  | .scalarWithFields field => "scalar field '" ++ field ++ "' cannot take sub-fields"
  | .noFieldsInBrackets field => "empty sub-field list after '" ++ field ++ "['"
  | .recursiveScalar field => "scalar field '" ++ field ++ "' cannot be recursive"
  | .noSuchFieldBelow field cls =>
      "field '" ++ field ++ "' cannot be recursive: entity class '" ++ cls ++ "' has no field '" ++
        field ++ "'"

structure TextError where
  text : String
  fault : Fault
  deriving DecidableEq, Repr

def TextError.message (error : TextError) : String :=
  "invalid field selector '" ++ error.text ++ "': " ++ error.fault.message

def expectName : List Token → Except Fault (String × List Token)
  | .name name :: rest => .ok (name, rest)
  | tokens => .error (.expectedName tokens.head?)

def expectClosing : List Token → Except Fault (List Token)
  | .closing :: rest => .ok rest
  | tokens => .error (.expectedClosing tokens.head?)

def takeToken (token : Token) : List Token → Bool × List Token
  | next :: rest => if next = token then (true, rest) else (false, next :: rest)
  | [] => (false, [])

def allFields (schema : Schema) (cls : EntityClass) : Selector :=
  cls.fields.foldl (fun selector field =>
    selector.insert field.name (schema.defaultSubselector field)) .empty

/-- Makes a field recursive in its own subselector. -/
def makeRecursive (schema : Schema) (field : Field) (sub : Selector) : Except Fault Selector :=
  match field.kind.target? with
  | none => .error (.recursiveScalar field.name)
  | some target =>
      if (schema.field? target field.name).isSome then .ok (sub.insertRecursive field.name)
      else .error (.noSuchFieldBelow field.name (schema.className target))

mutual

def readSelector (schema : Schema) :
    Nat → EntityClass → List Token → Except Fault (Selector × List Token)
  | 0, _, tokens => .error (.unexpected tokens.head?)
  | fuel + 1, cls, tokens =>
      match tokens with
      | .name _ :: _ => readFields schema fuel cls .empty tokens
      | .star :: rest => .ok (allFields schema cls, rest)
      | _ => .ok (.empty, tokens)

/-- One field or more, stored behind those read before. -/
def readFields (schema : Schema) :
    Nat → EntityClass → Selector → List Token → Except Fault (Selector × List Token)
  | 0, _, _, tokens => .error (.unexpected tokens.head?)
  | fuel + 1, cls, before, tokens => do
      let ((name, sub), rest) ← readField schema fuel cls tokens
      let selector := before.insert name sub
      match rest with
      | .pipe :: rest => readFields schema fuel cls selector rest
      | _ => return (selector, rest)

def readField (schema : Schema) :
    Nat → EntityClass → List Token → Except Fault ((String × Selector) × List Token)
  | 0, _, tokens => .error (.unexpected tokens.head?)
  | fuel + 1, cls, tokens => do
      let (name, rest) ← expectName tokens
      match cls.field? name with
      | none => throw (.unknownField cls.name name)
      | some field =>
          let (isStarred, rest) := takeToken .star rest
          let (sub, rest) ←
            match rest with
            | .opening :: rest => readBrackets schema fuel field rest
            | _ => pure (schema.defaultSubselector field, rest)
          if isStarred then
            let sub ← makeRecursive schema field sub
            return ((name, sub), rest)
          else return ((name, sub), rest)

/-- The selector in brackets behind a field, the opening one already read. -/
def readBrackets (schema : Schema) :
    Nat → Field → List Token → Except Fault (Selector × List Token)
  | 0, _, tokens => .error (.unexpected tokens.head?)
  | fuel + 1, field, tokens =>
      match field.kind.target?.bind schema.class? with
      | none => .error (.scalarWithFields field.name)
      | some target =>
          match tokens with
          | .closing :: _ => .error (.noFieldsInBrackets field.name)
          | _ => do
              let (sub, rest) ← readSelector schema fuel target tokens
              let rest ← expectClosing rest
              return (sub, rest)

end

/-- One field or more of the basic form, stored behind those read before. -/
def readBasic : Nat → Selector → List Token → Except Fault (Selector × List Token)
  | 0, _, tokens => .error (.unexpected tokens.head?)
  | fuel + 1, before, tokens => do
      let (name, rest) ← expectName tokens
      let (sub, rest) ←
        match rest with
        | .opening :: rest => do
            let (sub, rest) ← readBasic fuel .empty rest
            let rest ← expectClosing rest
            pure (sub, rest)
        | _ => pure (.empty, rest)
      let selector := before.insert name sub
      match rest with
      | .pipe :: rest => readBasic fuel selector rest
      | _ => return (selector, rest)

/-- Reads a text to its end. Every two steps take a token, and the fuel allows for more. -/
def readWhole (text : String) (read : Nat → List Token → Except Fault (Selector × List Token)) :
    Except TextError Selector :=
  let outcome : Except Fault Selector :=
    match tokenize text.toList with
    | .error c => .error (.unexpectedCharacter c)
    | .ok tokens => do
        match ← read (4 * tokens.length + 4) tokens with
        | (selector, []) => return selector
        | (_, rest) => throw (.unexpected rest.head?)
  outcome.mapError (TextError.mk text)

def parse (schema : Schema) (cls : EntityClass) (text : String) : Except TextError Selector :=
  readWhole text fun fuel tokens => readSelector schema fuel cls tokens

def parseBasic (text : String) : Except TextError Selector :=
  readWhole text fun fuel tokens => readBasic fuel .empty tokens

end EntityResolver.Selector
