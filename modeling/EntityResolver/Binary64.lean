import EntityResolver.Power

/-!
Double-precision numbers of IEEE 754, as their 64 bits.

A finite number is `±m * 2^q` with whole `m` and `q`; all arithmetic on it is exact arithmetic on
`m` and `q`, and rounding happens in `ofRatio` alone.
-/

set_option autoImplicit false

namespace EntityResolver

/-- A double-precision number. Two numbers are equal when their bits are, so the two zeros
differ. -/
structure Binary64 where
  bits : UInt64
  deriving DecidableEq, Repr

namespace Binary64

def infinityBits : Nat := 0x7ff0000000000000

/-- The number with the given sign whose magnitude has the given bits. -/
def ofMagnitude (negative : Bool) (magnitude : Nat) : Binary64 :=
  ⟨UInt64.ofNat (if negative then twoTo 63 + magnitude else magnitude)⟩

def infinity (negative : Bool) : Binary64 :=
  ofMagnitude negative infinityBits

def nan : Binary64 :=
  ofMagnitude false 0x7ff8000000000000

def zero (negative : Bool) : Binary64 :=
  ofMagnitude negative 0

def isNegative (x : Binary64) : Bool :=
  decide (twoTo 63 ≤ x.bits.toNat)

/-- Bits of the number without its sign. -/
def magnitudeBits (x : Binary64) : Nat :=
  x.bits.toNat % twoTo 63

def isNaN (x : Binary64) : Bool :=
  decide (infinityBits < x.magnitudeBits)

def isFinite (x : Binary64) : Bool :=
  decide (x.magnitudeBits < infinityBits)

def isZero (x : Binary64) : Bool :=
  x.magnitudeBits == 0

/-- The biased exponent, 0 for the numbers of least exponent. -/
def exponentField (x : Binary64) : Nat :=
  x.magnitudeBits / twoTo 52

/-- The whole number `m` of a finite `±m * 2^q`. -/
def significand (x : Binary64) : Nat :=
  if x.exponentField = 0 then x.magnitudeBits % twoTo 52
  else twoTo 52 + x.magnitudeBits % twoTo 52

def exponent (x : Binary64) : Int :=
  if x.exponentField = 0 then -1074 else (x.exponentField : Int) - 1075

/-- Equality of values: the two zeros are equal, a NaN equals nothing. -/
def sameValue (x y : Binary64) : Bool :=
  !x.isNaN && !y.isNaN && (x.bits == y.bits || (x.isZero && y.isZero))

/-- The whole number nearest to `num / den`, an exact half going to the even neighbour. -/
def roundHalfEven (num den : Nat) : Nat :=
  let quotient := num / den
  let twice := 2 * (num % den)
  if twice < den then quotient
  else if twice = den then quotient + quotient % 2
  else quotient + 1

def floorLog2 (num den : Nat) : Int :=
  let guess : Int := (Nat.log2 num : Int) - (Nat.log2 den : Int)
  let reached :=
    if 0 ≤ guess then decide (den * twoTo guess.toNat ≤ num)
    else decide (den ≤ num * twoTo (-guess).toNat)
  if reached then guess else guess - 1

/-- The number nearest to `±num / den`, of two equally near ones the one with even significand;
magnitudes beyond the greatest finite number give an infinity. -/
def ofRatio (negative : Bool) (num den : Nat) : Binary64 :=
  if num = 0 then zero negative
  else
    let q : Int := max (floorLog2 num den - 52) (-1074)
    let m :=
      if 0 ≤ q then roundHalfEven num (den * twoTo q.toNat)
      else roundHalfEven (num * twoTo (-q).toNat) den
    -- A significand of 53 bits carries its top bit into the exponent field.
    let magnitude := m + (q + 1074).toNat * twoTo 52
    ofMagnitude negative (min magnitude infinityBits)

/-- The number nearest to a whole number. -/
def ofInt (value : Int) : Binary64 :=
  ofRatio (decide (value < 0)) value.natAbs 1

def ofDecimal (negative : Bool) (digits : Nat) (exponent : Int) : Binary64 :=
  if digits = 0 then zero negative
  else
    let size : Int := ((Nat.log2 digits : Int) * 3) / 10 + exponent
    if 400 < size then infinity negative
    else if size < -400 - ((Nat.log2 digits : Int) / 20) then zero negative
    else if 0 ≤ exponent then ofRatio negative (digits * tenTo exponent.toNat) 1
    else ofRatio negative digits (tenTo (-exponent).toNat)

end Binary64

end EntityResolver
