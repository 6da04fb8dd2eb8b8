import EntityResolver.Text.Basic

/-!
The signs and names of which the text of a selector consists. Names are ASCII identifiers, and no
other characters may occur, white space included.
-/

set_option autoImplicit false

namespace EntityResolver.Selector

inductive Token where
  | opening
  | closing
  | pipe
  | star
  | name (text : String)
  deriving DecidableEq, Repr

def Token.sign? (c : Char) : Option Token :=
  if c = '[' then some .opening
  else if c = ']' then some .closing
  else if c = '|' then some .pipe
  else if c = '*' then some .star
  else none

def isNameStart (c : Char) : Bool :=
  Text.isAsciiLetter c || c == '_'

def isNameRest (c : Char) : Bool :=
  isNameStart c || Text.isAsciiDigit c

def IsIdentifier (name : List Char) : Prop :=
  ∃ c rest, name = c :: rest ∧ isNameStart c = true ∧ ∀ d ∈ rest, isNameRest d = true

/-- How a token, or the end of the text, is called in an error. -/
def describe : Option Token → String
  | some .opening => "'['"
  | some .closing => "']'"
  | some .pipe => "'|'"
  | some .star => "'*'"
  | some (.name text) => "'" ++ text ++ "'"
  | none => "end of input"

/-- The tokens of a text, or the first character that belongs to none. -/
def tokenize (text : List Char) : Except Char (List Token) :=
  match text with
  | [] => .ok []
  | c :: rest =>
      match Token.sign? c with
      | some sign => (tokenize rest).map (sign :: ·)
      | none =>
          if isNameStart c then
            (tokenize (rest.dropWhile isNameRest)).map
              (Token.name (String.ofList (c :: rest.takeWhile isNameRest)) :: ·)
          else .error c
termination_by text.length
decreasing_by
  · simp
  · have := (List.dropWhile_sublist (l := rest) isNameRest).length_le
    simp only [List.length_cons]
    omega

end EntityResolver.Selector
