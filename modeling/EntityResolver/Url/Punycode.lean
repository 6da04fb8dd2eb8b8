import EntityResolver.Text.Basic

/-!
Punycode: the letters and digits that stand for a label of a domain name with characters beyond
ASCII.

The ASCII characters of the label come first. Then the others are inserted in the order of their
code points; each insertion is a number, how many steps of counting it is away from the one before,
where a step goes to the next place in the text and after the last place to the next code point.
Numbers are written with 36 digits, the least significant first, and a digit below a threshold ends
its number.
-/

set_option autoImplicit false

namespace EntityResolver.Punycode

def digit (value : Nat) : Char :=
  if value < 26 then Char.ofNat ('a'.toNat + value) else Char.ofNat ('0'.toNat + value - 26)

/-- The threshold of a digit, between 1 and 26, where `position` counts by 36 from 36. -/
def threshold (bias position : Nat) : Nat :=
  if position ≤ bias then 1 else if bias + 26 ≤ position then 26 else position - bias

theorem threshold_pos (bias position : Nat) : 0 < threshold bias position := by
  unfold threshold
  split
  · omega
  · split <;> omega

def number (bias position value : Nat) : List Char :=
  let least := threshold bias position
  if value < least then [digit value]
  else
    digit (least + (value - least) % (36 - least)) ::
      number bias (position + 36) ((value - least) / (36 - least))
termination_by value
decreasing_by
  have positive := threshold_pos bias position
  have quotient := Nat.div_le_self (value - threshold bias position)
    (36 - threshold bias position)
  omega

def biasOf (bias distance : Nat) : Nat :=
  if 455 < distance then biasOf (bias + 36) (distance / 35)
  else bias + 36 * distance / (distance + 38)
termination_by distance
decreasing_by exact Nat.div_lt_self (by omega) (by omega)

/-- The bias after an insertion into `places` places. The first distance counts for less. -/
def adapted (isFirst : Bool) (distance places : Nat) : Nat :=
  let damped := if isFirst then distance / 700 else distance / 2
  biasOf 0 (damped + damped / places)

structure Progress where
  digits : List Char
  /-- The steps of counting since the last insertion. -/
  distance : Nat
  bias : Nat
  /-- How many characters of the label have been written, and how many were written at first. -/
  written : Nat
  basic : Nat

/-- Counts past a character, or inserts it if it is the one whose turn it is. -/
def Progress.visit (turn : Nat) (progress : Progress) (c : Char) : Progress :=
  if c.toNat < turn then { progress with distance := progress.distance + 1 }
  else if c.toNat = turn then
    { progress with
      digits := progress.digits ++ number progress.bias 36 progress.distance
      distance := 0
      bias := adapted (progress.written == progress.basic) progress.distance (progress.written + 1)
      written := progress.written + 1 }
  else progress

/-- Inserts the characters of a label that have the given code points. `next` is the code point at
which counting stands. -/
def insertAll (label : List Char) : Nat → List Nat → Progress → Progress
  | _, [], progress => progress
  | next, turn :: turns, progress =>
      let waiting := progress.distance + (turn - next) * (progress.written + 1)
      let visited := label.foldl (Progress.visit turn) { progress with distance := waiting }
      insertAll label (turn + 1) turns { visited with distance := visited.distance + 1 }

def encode (label : List Char) : List Char :=
  let basic := label.filter Text.isAscii
  let others := ((label.filter fun c => !Text.isAscii c).map Char.toNat).eraseDups
  let start : Progress := ⟨[], 0, 72, basic.length, basic.length⟩
  basic ++ (if basic.isEmpty then [] else ['-']) ++
    (insertAll label 128 (others.mergeSort (fun x y => decide (x ≤ y))) start).digits

end EntityResolver.Punycode
