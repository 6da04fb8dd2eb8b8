import EntityResolver.Text.Basic

/-!
Percent escapes: a byte is written as a percent sign and two hexadecimal digits.

Which characters are escaped depends on the part of the URL. Control characters and characters
beyond ASCII always are; the percent sign never is, so an escape that is already there stays.
-/

set_option autoImplicit false

namespace EntityResolver.Url

def fragmentEscapes : List Char := [' ', '"', '<', '>', '\x60']

def queryEscapes : List Char := [' ', '"', '#', '<', '>']

def pathEscapes : List Char := fragmentEscapes ++ ['#', '?', '\x7b', '\x7d']

/-- The characters escaped in the name and the password of a user. -/
def userEscapes : List Char := pathEscapes ++ ['/', ':', ';', '=', '@', '[', '\\', ']', '^', '|']

/-- One upper-case hexadecimal digit. -/
def escapeDigit (value : Nat) : Char :=
  if value < 10 then Char.ofNat ('0'.toNat + value) else Char.ofNat ('A'.toNat + value - 10)

def escapeByte (byte : UInt8) : List Char :=
  ['%', escapeDigit (byte.toNat / 16), escapeDigit (byte.toNat % 16)]

/-- A text with the given characters escaped, and those that always are. -/
def escape (escapes : List Char) (text : List Char) : List Char :=
  text.flatMap fun c =>
    if Text.isAsciiControl c || !Text.isAscii c || escapes.contains c then
      (String.utf8EncodeChar c).flatMap escapeByte
    else [c]

def unescapedBytes : List Char → List UInt8
  | '%' :: high :: low :: rest =>
      if Text.isHexDigit high && Text.isHexDigit low then
        UInt8.ofNat (Text.numberOf 16 [high, low]) :: unescapedBytes rest
      else '%'.toUInt8 :: unescapedBytes (high :: low :: rest)
  | c :: rest => String.utf8EncodeChar c ++ unescapedBytes rest
  | [] => []

/-- A text with its escapes undone, if that spells a text. -/
def unescape? (text : List Char) : Option (List Char) :=
  (String.fromUTF8? ⟨(unescapedBytes text).toArray⟩).map String.toList

end EntityResolver.Url
