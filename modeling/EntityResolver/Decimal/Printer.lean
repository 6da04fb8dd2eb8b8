import EntityResolver.Decimal.Shortest

/-!
The text of a double: its shortest decimal, written positionally for magnitudes from `1e-5` up to
but not including `1e16`, and as `d.ddde±x` outside of that range. A positional text always has a
fractional part.
-/

set_option autoImplicit false

namespace EntityResolver.Decimal

structure Layout where
  leastPositional : Int
  beyondPositional : Int

def Layout.document : Layout := ⟨-5, 16⟩

def zeros (count : Nat) : String :=
  String.ofList (List.replicate count '0')

/-- The digits of a decimal with the point at its place. -/
def positional (digits : List Char) (exponent : Int) : String :=
  if 0 ≤ exponent then
    String.ofList digits ++ zeros exponent.toNat ++ ".0"
  else
    let places := (-exponent).toNat
    if places < digits.length then
      String.ofList (digits.take (digits.length - places)) ++ "." ++
        String.ofList (digits.drop (digits.length - places))
    else
      "0." ++ zeros (places - digits.length) ++ String.ofList digits

/-- One digit before the point, the rest after it, and a signed exponent. -/
def scientific (digits : List Char) (leading : Int) : String :=
  let mantissa :=
    match digits with
    | [] => "0"
    | [digit] => digit.toString
    | digit :: rest => digit.toString ++ "." ++ String.ofList rest
  let sign := if leading < 0 then "-" else "+"
  mantissa ++ "e" ++ sign ++ toString leading.natAbs

def renderPositive (decimal : Decimal) (layout : Layout) : String :=
  let digits := Nat.toDigits 10 decimal.digits
  let leading := decimal.exponent + (digits.length : Int) - 1
  if layout.leastPositional ≤ leading ∧ leading < layout.beyondPositional then
    positional digits decimal.exponent
  else
    scientific digits leading

/-- The text of a finite number. -/
def render (layout : Layout) (x : Binary64) : String :=
  let sign := if x.isNegative then "-" else ""
  if x.isZero then sign ++ "0.0" else sign ++ (shortest x).renderPositive layout

end EntityResolver.Decimal
