import EntityResolver.Text.LetterCase
import EntityResolver.Url.Error
import EntityResolver.Url.Escape
import EntityResolver.Url.Punycode

/-!
Hosts: names and numeric addresses.

On the web a name is a domain: its escapes are undone, its letters are lower case, labels beyond
ASCII are written in Punycode, and a domain whose last label is a number is an IPv4 address. Under
other schemes a name is kept as it is written. An address in brackets is an IPv6 address.
-/

set_option autoImplicit false

namespace EntityResolver

inductive Host where
  | name (text : String)
  /-- The four bytes of an address. -/
  | ipv4 (bytes : List Nat)
  /-- The eight 16-bit pieces of an address. -/
  | ipv6 (pieces : List Nat)
  deriving DecidableEq, Repr

namespace Host

def isOctalDigit (c : Char) : Bool :=
  decide ('0' ≤ c) && decide (c ≤ '7')

/-- A number in base 10, in base 8 after a zero, or in base 16 after `0x`. -/
def readNumber? : List Char → Option Nat
  | [] => none
  | '0' :: c :: digits =>
      if c = 'x' ∨ c = 'X' then
        if digits.all Text.isHexDigit then some (Text.numberOf 16 digits) else none
      else if (c :: digits).all isOctalDigit then some (Text.numberOf 8 (c :: digits))
      else none
  | digits => if digits.all Text.isAsciiDigit then some (Text.numberOf 10 digits) else none

/-- The labels of a domain, less an empty one at its end. -/
def labels (domain : List Char) : List (List Char) :=
  let parts := Text.splitOn '.' domain
  if parts.getLast? = some [] then parts.dropLast else parts

/-- The last label is made of digits, or is a number in another base. -/
def endsInNumber (domain : List Char) : Bool :=
  match (labels domain).getLast? with
  | none | some [] => false
  | some last => last.all Text.isAsciiDigit || (readNumber? last).isSome

/-- The given number of bytes of a number, the most significant first. -/
def bytesOf : Nat → Nat → List Nat
  | 0, _ => []
  | count + 1, value => value / Nat.pow 256 count % 256 :: bytesOf count value

/-- An address of up to four numbers. The last one fills the bytes that the others leave. -/
def readIpv4? (domain : List Char) : Option Host := do
  let numbers ← (labels domain).mapM readNumber?
  let last ← numbers.getLast?
  let first := numbers.dropLast
  let left := 4 - first.length
  if first.length < 4 ∧ first.all (· < 256) ∧ last < Nat.pow 256 left then
    some (.ipv4 (first ++ bytesOf left last))
  else none

def readPiece? (digits : List Char) : Option Nat :=
  if digits.length ∈ [1, 2, 3, 4] ∧ digits.all Text.isHexDigit then some (Text.numberOf 16 digits)
  else none

/-- A byte in base 10 without a superfluous zero in front. -/
def readByte? (digits : List Char) : Option Nat :=
  if digits.length ∈ [1, 2, 3] ∧ digits.all Text.isAsciiDigit ∧
      (digits.head? = some '0' → digits.length = 1) ∧ Text.numberOf 10 digits < 256 then
    some (Text.numberOf 10 digits)
  else none

/-- Four bytes as two pieces. -/
def readBytePieces? (text : List Char) : Option (List Nat) :=
  match (Text.splitOn '.' text).mapM readByte? with
  | some [a, b, c, d] => some [a * 256 + b, c * 256 + d]
  | _ => none

/-- Pieces between colons. Where the address ends, the last two may be written as four bytes. -/
def readParts? (atEnd : Bool) : List (List Char) → Option (List Nat)
  | [] => some []
  | [part] =>
      match readPiece? part with
      | some piece => some [piece]
      | none => if atEnd then readBytePieces? part else none
  | part :: parts => do
      let piece ← readPiece? part
      let pieces ← readParts? atEnd parts
      pure (piece :: pieces)

def readPieces? (atEnd : Bool) (text : List Char) : Option (List Nat) :=
  if text.isEmpty then some [] else readParts? atEnd (Text.splitOn ':' text)

/-- What stands on both sides of the first two colons in a row. -/
def splitAtGap? : List Char → Option (List Char × List Char)
  | ':' :: ':' :: rest => some ([], rest)
  | c :: rest => (splitAtGap? rest).map fun (left, right) => (c :: left, right)
  | [] => none

/-- An address of eight pieces. Two colons in a row stand for the zeros that are missing. -/
def readIpv6? (text : List Char) : Option Host := do
  match splitAtGap? text with
  | some (left, right) =>
      let before ← readPieces? false left
      let after ← readPieces? true right
      let given := before.length + after.length
      if given < 8 then pure (.ipv6 (before ++ List.replicate (8 - given) 0 ++ after)) else none
  | none =>
      let pieces ← readPieces? true text
      if pieces.length = 8 then pure (.ipv6 pieces) else none

def isForbidden (c : Char) : Bool :=
  Text.isAsciiControl c ||
    [' ', '%', '#', '/', ':', '<', '>', '?', '@', '[', '\\', ']', '^', '|'].contains c

/-- Characters in no host of another scheme. -/
def isForbiddenElsewhere (c : Char) : Bool :=
  c.toNat == 0 ||
    ['\t', '\n', '\r', ' ', '#', '/', ':', '<', '>', '?', '@', '[', '\\', ']', '^', '|'].contains c

def asFullStop (c : Char) : Char :=
  if [0x3002, 0xff0e, 0xff61].contains c.toNat then '.' else c

def asciiLabel (label : List Char) : List Char :=
  if label.all Text.isAscii then label else ['x', 'n', '-', '-'] ++ Punycode.encode label

def asciiDomain (domain : List Char) : List Char :=
  ['.'].intercalate
    ((Text.splitOn '.' ((domain.map asFullStop).flatMap Text.lowerChars)).map asciiLabel)

def readDomain (text : List Char) : Except UrlError Host :=
  match (Url.unescape? text).map asciiDomain with
  | none => .error .badDomain
  | some [] => .error .emptyHost
  | some domain =>
      if domain.any isForbidden then .error .badDomain
      else if endsInNumber domain then
        match readIpv4? domain with
        | some host => .ok host
        | none => .error .badIpv4
      else .ok (.name (String.ofList domain))

def read (onWeb : Bool) (text : List Char) : Except UrlError Host :=
  match text with
  | '[' :: rest =>
      match (if rest.getLast? = some ']' then readIpv6? rest.dropLast else none) with
      | some host => .ok host
      | none => .error .badIpv6
  | _ =>
      if onWeb then readDomain text
      else if text.any isForbiddenElsewhere then .error .badHostCharacter
      else .ok (.name (String.ofList (Url.escape [] text)))

def renderPiece (piece : Nat) : String :=
  String.ofList (Nat.toDigits 16 piece)

def renderPieces (pieces : List Nat) : String :=
  ":".intercalate (pieces.map renderPiece)

/-- How many zeros stand from a place on. -/
def zerosAt (pieces : List Nat) (place : Nat) : Nat :=
  ((pieces.drop place).takeWhile (· == 0)).length

def longestZeros (pieces : List Nat) : Nat :=
  (List.range pieces.length).foldl
    (fun best place => if zerosAt pieces best < zerosAt pieces place then place else best) 0

/-- The pieces, with two colons for the first of the longest runs of at least two zeros. -/
def renderIpv6 (pieces : List Nat) : String :=
  let place := longestZeros pieces
  let count := zerosAt pieces place
  if count < 2 then renderPieces pieces
  else renderPieces (pieces.take place) ++ "::" ++ renderPieces (pieces.drop (place + count))

def render : Host → String
  | .name text => text
  | .ipv4 bytes => ".".intercalate (bytes.map toString)
  | .ipv6 pieces => "[" ++ renderIpv6 pieces ++ "]"

/-- The host is the machine itself: `localhost`, in any letter case, or `127.0.0.1`. -/
def isLocal (host : Host) : Bool :=
  let name := String.ofList (host.render.toList.map Text.asciiLower)
  name == "localhost" || name == "127.0.0.1"

end Host

end EntityResolver
