import EntityResolver.Text.Basic

/-!
White space, and texts without it at their ends.
-/

set_option autoImplicit false

namespace EntityResolver.Text

/-- The property White_Space. -/
def isBlank (c : Char) : Bool :=
  inRanges [(9, 13), (32, 32), (133, 133), (160, 160), (5760, 5760), (8192, 8202), (8232, 8233),
    (8239, 8239), (8287, 8287), (12288, 12288)] c

def trimStart (text : List Char) : List Char :=
  text.dropWhile isBlank

/-- Drops white space at both ends. -/
def trimChars (text : List Char) : List Char :=
  (trimStart (trimStart text).reverse).reverse

def trim (text : String) : String :=
  String.ofList (trimChars text.toList)

end EntityResolver.Text
