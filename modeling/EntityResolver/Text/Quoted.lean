import EntityResolver.Text.Hidden

/-!
Texts quoted for a reader: between double quotes, with quotes, backslashes and hidden characters
escaped, and lists of such texts.
-/

set_option autoImplicit false

namespace EntityResolver.Text

/-- A character as it stands between quotes. -/
def escapeQuoted (c : Char) : String :=
  if c = '"' then "\\\""
  else if c = '\\' then "\\\\"
  else if c = '\n' then "\\n"
  else if c = '\r' then "\\r"
  else if c = '\t' then "\\t"
  else if c.toNat = 0 then "\\0"
  else if isHidden c then "\\u\x7b" ++ String.ofList (Nat.toDigits 16 c.toNat) ++ "\x7d"
  else c.toString

def quoted (text : String) : String :=
  "\"" ++ String.join (text.toList.map escapeQuoted) ++ "\""

def quotedList (texts : List String) : String :=
  "[" ++ ", ".intercalate (texts.map quoted) ++ "]"

/-- A braced list of quoted names with their quoted values. -/
def quotedEntries (entries : List (String × String)) : String :=
  "\x7b" ++ ", ".intercalate (entries.map fun (name, value) => quoted name ++ ": " ++ quoted value)
    ++ "\x7d"

end EntityResolver.Text
