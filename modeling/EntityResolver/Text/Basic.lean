/-!
Characters and texts, as lists of characters.

Unicode gives classes of characters. Below U+0080 each class states its members by name, and a table
of ranges of code points covers the rest.
-/

set_option autoImplicit false

namespace EntityResolver.Text

/-- A character is in one of the ranges, ends included. -/
def inRanges (ranges : List (Nat × Nat)) (c : Char) : Bool :=
  ranges.any fun range => decide (range.1 ≤ c.toNat) && decide (c.toNat ≤ range.2)

def isAscii (c : Char) : Bool :=
  decide (c.toNat < 128)

def isAsciiUpper (c : Char) : Bool :=
  decide ('A' ≤ c) && decide (c ≤ 'Z')

def isAsciiLower (c : Char) : Bool :=
  decide ('a' ≤ c) && decide (c ≤ 'z')

def isAsciiLetter (c : Char) : Bool :=
  isAsciiUpper c || isAsciiLower c

def isAsciiDigit (c : Char) : Bool :=
  decide ('0' ≤ c) && decide (c ≤ '9')

def isHexDigit (c : Char) : Bool :=
  isAsciiDigit c || (decide ('a' ≤ c) && decide (c ≤ 'f')) || (decide ('A' ≤ c) && decide (c ≤ 'F'))

def isAsciiControl (c : Char) : Bool :=
  decide (c.toNat < 32) || decide (c.toNat = 127)

/-- The lower-case letter of an upper-case ASCII letter; other characters stay. -/
def asciiLower (c : Char) : Char :=
  if isAsciiUpper c then Char.ofNat (c.toNat + 32) else c

def hexValue (c : Char) : Nat :=
  if isAsciiDigit c then c.toNat - '0'.toNat
  else if 'a' ≤ c then c.toNat - 'a'.toNat + 10
  else c.toNat - 'A'.toNat + 10

def numberOf (base : Nat) (digits : List Char) : Nat :=
  digits.foldl (fun value c => value * base + hexValue c) 0

/-- The pattern stands somewhere in the text. -/
def occursIn (pattern : List Char) : List Char → Bool
  | [] => pattern.isEmpty
  | c :: rest => pattern.isPrefixOf (c :: rest) || occursIn pattern rest

/-- The parts of a text between occurrences of a character, one more than there are occurrences. -/
def splitOn (separator : Char) : List Char → List (List Char)
  | [] => [[]]
  | c :: rest =>
      if c = separator then [] :: splitOn separator rest
      else
        match splitOn separator rest with
        | [] => [[c]]
        | part :: parts => (c :: part) :: parts

end EntityResolver.Text
