import EntityResolver.Decimal.Reader
import EntityResolver.Json.Basic

/-!
JSON text, in two steps: `Syntax.read?` checks the grammar and keeps what is written, members in
order and repeated keys included; `Syntax.value?` gives the document that is meant.

A syntax tree may hold what no document has: a text with a lone half of a surrogate pair, a
number beyond the doubles, or nesting deeper than the reader of a document allows.
-/

set_option autoImplicit false

namespace EntityResolver

inductive Json.Syntax where
  | null
  | bool (flag : Bool)
  /-- A number, as its sign, its parts, and whether it is written as a whole number. -/
  | number (negative : Bool) (numeral : Decimal.Numeral) (whole : Bool)
  /-- A text, `none` where its escapes name no text. -/
  | str (text : Option String)
  | array (items : List Json.Syntax)
  | object (members : List (Option String × Json.Syntax))
  deriving Inhabited

namespace Json.Syntax

/-- The characters that may stand between the signs of a document. -/
def isBlank (c : Char) : Bool :=
  c == ' ' || c == '\t' || c == '\n' || c == '\r'

def skipBlanks (text : List Char) : List Char :=
  text.dropWhile isBlank

/-- Four hexadecimal digits and what follows them. -/
def readUnit? : List Char → Option (Nat × List Char)
  | a :: b :: c :: d :: rest =>
      if [a, b, c, d].all Text.isHexDigit then some (Text.numberOf 16 [a, b, c, d], rest) else none
  | _ => none

/-- One unit of a text: a character, or a 16-bit unit written as an escape. -/
inductive TextUnit where
  | char (c : Char)
  | unit (value : Nat)

/-- Reads the units of a text up to its closing quote. Characters below U+0020 must be escaped. -/
def readUnits? : Nat → List Char → Option (List TextUnit × List Char)
  | 0, _ => none
  | _ + 1, [] => none
  | fuel + 1, c :: rest =>
      if c = '"' then some ([], rest)
      else if c = '\\' then
        match rest with
        | [] => none
        | 'u' :: tail => do
            let (value, tail) ← readUnit? tail
            let (units, tail) ← readUnits? fuel tail
            pure (.unit value :: units, tail)
        | e :: tail => do
            let c ← match e with
              | '"' => some '"'
              | '\\' => some '\\'
              | '/' => some '/'
              | 'b' => some (Char.ofNat 8)
              | 'f' => some (Char.ofNat 12)
              | 'n' => some '\n'
              | 'r' => some '\r'
              | 't' => some '\t'
              | _ => none
            let (units, tail) ← readUnits? fuel tail
            pure (.char c :: units, tail)
      else if c.toNat < 32 then none
      else do
        let (units, tail) ← readUnits? fuel rest
        pure (.char c :: units, tail)

def isHighHalf (value : Nat) : Bool :=
  decide (0xd800 ≤ value) && decide (value < 0xdc00)

def isLowHalf (value : Nat) : Bool :=
  decide (0xdc00 ≤ value) && decide (value < 0xe000)

/-- The text that units spell, if each half of a surrogate pair has its other half. -/
def spell? : List TextUnit → Option (List Char)
  | [] => some []
  | .char c :: rest => (spell? rest).map (c :: ·)
  | .unit high :: .unit low :: rest =>
      if isHighHalf high then
        if isLowHalf low then
          (spell? rest).map (Char.ofNat (0x10000 + (high - 0xd800) * 0x400 + (low - 0xdc00)) :: ·)
        else none
      else if isLowHalf high then none
      else (spell? (.unit low :: rest)).map (Char.ofNat high :: ·)
  | .unit value :: rest =>
      if isHighHalf value || isLowHalf value then none
      else (spell? rest).map (Char.ofNat value :: ·)

/-- A text, its opening quote already read. -/
def readText? (text : List Char) : Option (Option String × List Char) := do
  let (units, rest) ← readUnits? (text.length + 1) text
  pure ((spell? units).map String.ofList, rest)

/-- An exponent and what follows it; nothing is read where no exponent starts. -/
def readExponent? : List Char → Option (Option Int × List Char)
  | c :: rest =>
      if c = 'e' ∨ c = 'E' then
        let (negative, digits) := Decimal.splitSign rest
        let exponent := digits.takeWhile Text.isAsciiDigit
        if exponent.isEmpty then none
        else
          let value : Int := Text.numberOf 10 exponent
          some (some (if negative then -value else value), digits.dropWhile Text.isAsciiDigit)
      else some (none, c :: rest)
  | [] => some (none, [])

/-- A number: digits without a superfluous zero in front, then a fraction and an exponent. -/
def readNumber? (text : List Char) : Option (Json.Syntax × List Char) := do
  let (negative, text) := match text with
    | '-' :: rest => (true, rest)
    | rest => (false, rest)
  let whole := text.takeWhile Text.isAsciiDigit
  let rest := text.dropWhile Text.isAsciiDigit
  match whole with
  | [] => none
  | '0' :: _ :: _ => none
  | _ =>
      let (fraction, rest) ← match rest with
        | '.' :: tail =>
            let digits := tail.takeWhile Text.isAsciiDigit
            if digits.isEmpty then none else some (digits, tail.dropWhile Text.isAsciiDigit)
        | rest => some ([], rest)
      let (exponent, rest) ← readExponent? rest
      pure (.number negative ⟨whole, fraction, exponent.getD 0⟩
        (fraction.isEmpty && exponent.isNone), rest)

def afterWord? : List Char → List Char → Option (List Char)
  | [], rest => some rest
  | c :: word, d :: rest => if c = d then afterWord? word rest else none
  | _ :: _, [] => none

mutual

def readValue? : Nat → List Char → Option (Json.Syntax × List Char)
  | 0, _ => none
  | fuel + 1, text =>
      match skipBlanks text with
      | [] => none
      | 'n' :: rest => (afterWord? ['u', 'l', 'l'] rest).map (.null, ·)
      | 't' :: rest => (afterWord? ['r', 'u', 'e'] rest).map (.bool true, ·)
      | 'f' :: rest => (afterWord? ['a', 'l', 's', 'e'] rest).map (.bool false, ·)
      | '"' :: rest => (readText? rest).map fun (text, rest) => (.str text, rest)
      | '[' :: rest =>
          match skipBlanks rest with
          | ']' :: rest => some (.array [], rest)
          | rest => (readItems? fuel rest).map fun (items, rest) => (.array items, rest)
      | '{' :: rest =>
          match skipBlanks rest with
          | '}' :: rest => some (.object [], rest)
          | rest => (readMembers? fuel rest).map fun (members, rest) => (.object members, rest)
      | rest => readNumber? rest

/-- The items of an array that is not empty, up to its closing bracket. -/
def readItems? : Nat → List Char → Option (List Json.Syntax × List Char)
  | 0, _ => none
  | fuel + 1, text => do
      let (item, rest) ← readValue? fuel text
      match skipBlanks rest with
      | ']' :: rest => pure ([item], rest)
      | ',' :: rest => do
          let (items, rest) ← readItems? fuel rest
          pure (item :: items, rest)
      | _ => none

/-- The members of an object that is not empty, up to its closing bracket. -/
def readMembers? : Nat → List Char → Option (List (Option String × Json.Syntax) × List Char)
  | 0, _ => none
  | fuel + 1, text =>
      match skipBlanks text with
      | '"' :: rest => do
          let (key, rest) ← readText? rest
          match skipBlanks rest with
          | ':' :: rest => do
              let (value, rest) ← readValue? fuel rest
              match skipBlanks rest with
              | '}' :: rest => pure ([(key, value)], rest)
              | ',' :: rest => do
                  let (members, rest) ← readMembers? fuel rest
                  pure ((key, value) :: members, rest)
              | _ => none
          | _ => none
      | _ => none

end

/-- Reads a text that is one value between blanks. Each step uses up a character, so the length of
the text bounds the steps. -/
def read? (text : String) : Option Json.Syntax := do
  let chars := text.toList
  let (value, rest) ← readValue? (2 * chars.length + 2) chars
  if (skipBlanks rest).isEmpty then pure value else none

/-- The number that is meant: an integer if it is written as one, is not `-0` and fits, otherwise
the nearest double, which must be finite. -/
def numberValue? (negative : Bool) (numeral : Decimal.Numeral) (whole : Bool) : Option Json :=
  let magnitude := Text.numberOf 10 numeral.whole
  let value : Int := if negative then -(magnitude : Int) else magnitude
  if whole && !(negative && magnitude == 0) && decide (Json.leastInt ≤ value)
      && decide (value ≤ Json.greatestInt) then
    some (.int value)
  else
    let double := numeral.value negative
    if double.isFinite then some (.float double) else none

mutual

/-- The document that is meant, with at most `levels` arrays and objects around one another. -/
def value? (levels : Nat) : Json.Syntax → Option Json
  | .null => some .null
  | .bool flag => some (.bool flag)
  | .number negative numeral whole => numberValue? negative numeral whole
  | .str text => text.map .str
  | .array items =>
      if levels = 0 then none else (valueItems? (levels - 1) items).map .array
  | .object members =>
      if levels = 0 then none else (valueMembers? (levels - 1) members).map Json.ofMembers

def valueItems? (levels : Nat) : List Json.Syntax → Option (List Json)
  | [] => some []
  | item :: rest => do
      let value ← value? levels item
      let values ← valueItems? levels rest
      pure (value :: values)

def valueMembers? (levels : Nat) :
    List (Option String × Json.Syntax) → Option (List (String × Json))
  | [] => some []
  | (key, item) :: rest => do
      let key ← key
      let value ← value? levels item
      let members ← valueMembers? levels rest
      pure ((key, value) :: members)

end

end Json.Syntax

/-- How many arrays and objects a document of the remote may have around one another. -/
def Json.remoteLevels : Nat := 127

def Json.parse? (levels : Nat) (text : String) : Option Json := do
  (← Json.Syntax.read? text).value? levels

end EntityResolver
