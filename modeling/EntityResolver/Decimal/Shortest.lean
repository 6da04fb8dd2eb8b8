import EntityResolver.Binary64

/-!
The shortest decimal that reads back as a given double.

The reals that round to `m * 2^q` form an interval around it, ends included exactly when `m` is
even. For 1, 2, … 17 digits the two neighbours of the number on the grid of decimals with that
many digits are tried; the first grid with a neighbour inside the interval decides the length,
and the nearer of two such neighbours decides the digits.
-/

set_option autoImplicit false

namespace EntityResolver

structure Decimal where
  digits : Nat
  exponent : Int
  deriving DecidableEq, Repr

namespace Decimal

/-- An open or closed interval of positive reals with a point in it, all over one denominator. -/
structure Interval where
  low : Nat
  point : Nat
  high : Nat
  denominator : Nat
  closed : Bool

/-- The reals that round to a finite positive number, with the number itself as the point. Below
a power of two the neighbours are twice as close as above it. -/
def Interval.around (x : Binary64) : Interval :=
  let m := x.significand
  let q := x.exponent - 2
  let scale := twoTo q.toNat
  let below := if m = twoTo 52 ∧ 1 < x.exponentField then 1 else 2
  { low := (4 * m - below) * scale
    point := 4 * m * scale
    high := (4 * m + 2) * scale
    denominator := twoTo (-q).toNat
    closed := m % 2 == 0 }

def Interval.holds (interval : Interval) (decimal : Decimal) : Bool :=
  let num := decimal.digits * tenTo decimal.exponent.toNat * interval.denominator
  let den := tenTo (-decimal.exponent).toNat
  if interval.closed then
    decide (interval.low * den ≤ num) && decide (num ≤ interval.high * den)
  else
    decide (interval.low * den < num) && decide (num < interval.high * den)

/-- The decimal of the grid `10^exponent` at or below the point, and the point's distance from it
and to the next one, in units of one common fraction. -/
def Interval.onGrid (interval : Interval) (exponent : Int) : Nat × Nat × Nat :=
  let num := interval.point * tenTo (-exponent).toNat
  let den := interval.denominator * tenTo exponent.toNat
  (num / den, num % den, den - num % den)

/-- The nearest decimal of the grid that lies in the interval, if there is one. -/
def Interval.nearest? (interval : Interval) (exponent : Int) : Option Decimal :=
  let (digits, excess, shortfall) := interval.onGrid exponent
  let lower : Decimal := ⟨digits, exponent⟩
  let upper : Decimal := ⟨digits + 1, exponent⟩
  match interval.holds lower, interval.holds upper with
  | true, false => some lower
  | false, true => some upper
  | true, true =>
      if excess < shortfall then some lower
      else if shortfall < excess then some upper
      else if digits % 2 = 0 then some lower else some upper
  | false, false => none

/-- The greatest `e` with `10^e ≤ point`, searched from a bound that is surely not above it. -/
def Interval.magnitude (interval : Interval) : Int :=
  let reaches (e : Int) : Bool :=
    decide (interval.denominator * tenTo e.toNat ≤ interval.point * tenTo (-e).toNat)
  let rec climb : Nat → Int → Int
    | 0, e => e
    | steps + 1, e => if reaches (e + 1) then climb steps (e + 1) else e
  let bits : Int := Binary64.floorLog2 interval.point interval.denominator
  climb 8 (bits * 30103 / 100000 - 2)

/-- Drops trailing zeros, with the decimal's value kept. -/
def trim : Nat → Decimal → Decimal
  | 0, decimal => decimal
  | steps + 1, decimal =>
      if decimal.digits % 10 = 0 ∧ decimal.digits ≠ 0 then
        trim steps ⟨decimal.digits / 10, decimal.exponent + 1⟩
      else decimal

/-- The decimal of fewest digits that reads back as a finite number other than zero, its sign
left out. -/
def shortest (x : Binary64) : Decimal :=
  let interval := Interval.around x
  let top := interval.magnitude
  let found := (List.range 17).findSome? fun (count : Nat) =>
    interval.nearest? (top - (count : Int))
  (found.getD ⟨x.significand, x.exponent⟩).trim 20

end Decimal

end EntityResolver
