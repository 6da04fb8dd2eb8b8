import EntityResolver.Binary64
import EntityResolver.Text.Basic

/-!
Reading a decimal numeral as the nearest double.

A numeral is an optional sign followed by digits with at most one point among or around them and
an optional exponent, or by one of the words `inf`, `infinity` and `nan` in any case. At least one
digit stands beside the point; nothing may precede or follow the numeral.
-/

set_option autoImplicit false

namespace EntityResolver.Decimal

def splitSign : List Char → Bool × List Char
  | '-' :: rest => (true, rest)
  | '+' :: rest => (false, rest)
  | rest => (false, rest)

structure Numeral where
  whole : List Char
  fraction : List Char
  exponent : Int

/-- The digits and the fraction, without sign; the rest starts with what is no part of them. -/
def splitDigits (text : List Char) : List Char × List Char × List Char :=
  let whole := text.takeWhile Text.isAsciiDigit
  match text.dropWhile Text.isAsciiDigit with
  | '.' :: rest => (whole, rest.takeWhile Text.isAsciiDigit, rest.dropWhile Text.isAsciiDigit)
  | rest => (whole, [], rest)

/-- An exponent that fills the text: a sign if any, then at least one digit. -/
def readExponent? (text : List Char) : Option Int :=
  let (negative, digits) := splitSign text
  if digits.isEmpty || !digits.all Text.isAsciiDigit then none
  else
    let value : Int := Text.numberOf 10 digits
    some (if negative then -value else value)

/-- Reads a numeral without sign that fills the text. -/
def readNumeral? (text : List Char) : Option Numeral :=
  let (whole, fraction, rest) := splitDigits text
  if whole.isEmpty && fraction.isEmpty then none
  else
    match rest with
    | [] => some ⟨whole, fraction, 0⟩
    | c :: tail =>
        if c = 'e' ∨ c = 'E' then
          (readExponent? tail).map fun exponent => ⟨whole, fraction, exponent⟩
        else none

def Numeral.value (numeral : Numeral) (negative : Bool) : Binary64 :=
  Binary64.ofDecimal negative (Text.numberOf 10 (numeral.whole ++ numeral.fraction))
    (numeral.exponent - numeral.fraction.length)

def read? (text : String) : Option Binary64 :=
  let (negative, rest) := splitSign text.toList
  match String.ofList (rest.map Text.asciiLower) with
  | "inf" | "infinity" => some (Binary64.infinity negative)
  | "nan" => some Binary64.nan
  | _ => (readNumeral? rest).map fun numeral => numeral.value negative

end EntityResolver.Decimal
