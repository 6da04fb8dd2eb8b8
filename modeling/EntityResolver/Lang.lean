import EntityResolver.Text.Blank

/-!
The languages in which the remote writes texts.
-/

set_option autoImplicit false

namespace EntityResolver

inductive Lang where
  | pl
  | en
  deriving DecidableEq, Repr, Inhabited

/-- The code of a language in calls and responses. -/
def Lang.code : Lang → String
  | .pl => "pl"
  | .en => "en"

/-- The language with a code, letter case and white space around it aside. -/
def Lang.ofCode? (code : String) : Option Lang :=
  match String.ofList ((Text.trimChars code.toList).map Text.asciiLower) with
  | "pl" => some .pl
  | "en" => some .en
  | _ => none

end EntityResolver
