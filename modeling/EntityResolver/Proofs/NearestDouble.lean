import EntityResolver.Binary64
import Mathlib.Algebra.Order.AbsoluteValue.Basic
import Mathlib.Algebra.Order.Field.Power
import Mathlib.Algebra.Order.Field.Rat
import Mathlib.Data.Nat.Log
import Mathlib.Tactic.Linarith
import Mathlib.Tactic.Ring

/-!
# Integers as doubles

A large integer becomes the nearest double. The finite doubles near it are multiples of one power
of two, and those that are no such multiples are too small to be nearer; among the multiples,
`roundHalfEven` finds the nearest one.
-/

set_option autoImplicit false

namespace EntityResolver.Binary64

/-- The number that a finite double is. -/
def value (x : Binary64) : ℚ :=
  (if x.isNegative then -1 else 1) * x.significand * 2 ^ x.exponent

/-- A finite double is nearest to a number: none is nearer, and if another one is as near, its own
significand is even. -/
structure IsNearest (x : Binary64) (number : ℚ) : Prop where
  finite : x.isFinite = true
  least : ∀ y : Binary64, y.isFinite = true → |x.value - number| ≤ |y.value - number|
  even : ∀ y : Binary64, y.isFinite = true → |x.value - number| = |y.value - number| →
    y.value ≠ x.value → x.significand % 2 = 0

theorem significand_lt (x : Binary64) : x.significand < 2 ^ 53 := by
  have below : x.magnitudeBits % twoTo 52 < twoTo 52 := Nat.mod_lt _ (by decide)
  have power : twoTo 52 = 2 ^ 52 := rfl
  unfold significand
  split <;> omega

theorem value_cases (x : Binary64) (shift : ℕ) :
    (∃ multiple : ℤ, x.value = multiple * 2 ^ shift) ∨ |x.value| < 2 ^ (52 + shift) := by
  rcases le_or_gt (shift : ℤ) x.exponent with large | small
  · obtain ⟨more, exponent⟩ := Int.le.dest large
    refine .inl ⟨(if x.isNegative then -1 else 1) * x.significand * 2 ^ more, ?_⟩
    rw [value, ← exponent, zpow_add₀ two_ne_zero, zpow_natCast, zpow_natCast]
    push_cast
    ring
  · right
    have sign : |(if x.isNegative then -1 else 1 : ℚ)| = 1 := by split <;> simp
    have bound : (x.significand : ℚ) < 2 ^ 53 := by exact_mod_cast x.significand_lt
    have power : (0 : ℚ) < 2 ^ x.exponent := by positivity
    calc |x.value| = x.significand * 2 ^ x.exponent := by
          rw [value, abs_mul, abs_mul, sign, one_mul, abs_of_pos power, Nat.abs_cast]
      _ < 2 ^ 53 * 2 ^ x.exponent := by gcongr
      _ = 2 ^ 52 * 2 ^ (x.exponent + 1) := by rw [zpow_add_one₀ two_ne_zero]; ring
      _ ≤ 2 ^ 52 * 2 ^ (shift : ℤ) := by gcongr <;> [norm_num; omega]
      _ = 2 ^ (52 + shift) := by rw [zpow_natCast, pow_add]

/-- A quotient is rounded down, up, or to the even neighbour if it is in the middle. -/
theorem roundHalfEven_cases (number divisor : ℕ) :
    (2 * (number % divisor) < divisor ∧ roundHalfEven number divisor = number / divisor) ∨
      (2 * (number % divisor) = divisor ∧ roundHalfEven number divisor % 2 = 0 ∧
        (roundHalfEven number divisor = number / divisor ∨
          roundHalfEven number divisor = number / divisor + 1)) ∨
      (divisor < 2 * (number % divisor) ∧
        roundHalfEven number divisor = number / divisor + 1) := by
  unfold roundHalfEven
  dsimp only
  split
  · omega
  · split <;> omega

/-- No multiple of a divisor is nearer than the rounded quotient, which is even if another one is as
near. -/
theorem roundHalfEven_nearest (number : ℕ) {divisor : ℕ} (positive : 0 < divisor) (multiple : ℤ) :
    ((roundHalfEven number divisor : ℤ) * divisor - number).natAbs ≤
        (multiple * divisor - number).natAbs ∧
      (((roundHalfEven number divisor : ℤ) * divisor - number).natAbs =
          (multiple * divisor - number).natAbs →
        multiple ≠ roundHalfEven number divisor → roundHalfEven number divisor % 2 = 0) := by
  have parts : (number : ℤ) =
      (number / divisor : ℕ) * divisor + (number % divisor : ℕ) := by
    exact_mod_cast (Nat.div_add_mod' number divisor).symm
  have remainder := Nat.mod_lt number positive
  have rounded := roundHalfEven_cases number divisor
  generalize roundHalfEven number divisor = rounding at *
  generalize number / divisor = quotient at *
  generalize number % divisor = rest at *
  have next : ((quotient : ℤ) + 1) * divisor = quotient * divisor + divisor := by ring
  -- A multiple other than the two around the number is further away by a divisor.
  have sides : multiple * divisor ≤ quotient * divisor - divisor ∨ multiple = quotient ∨
      multiple = quotient + 1 ∨ (quotient : ℤ) * divisor + 2 * divisor ≤ multiple * divisor := by
    rcases lt_trichotomy multiple quotient with below | same | above
    · left
      nlinarith
    · exact .inr (.inl same)
    · rcases eq_or_lt_of_le (Int.add_one_le_iff.mpr above) with same | above
      · exact .inr (.inr (.inl same.symm))
      · right; right; right
        nlinarith
  rcases rounded with ⟨down, rfl⟩ | ⟨middle, even, rfl | rfl⟩ | ⟨up, rfl⟩
  all_goals
    push_cast
    rcases sides with side | rfl | rfl | side <;> omega

variable {magnitude shift significant number : ℕ}

theorem bits_ofMagnitude (fits : magnitude < 2 ^ 63) :
    (ofMagnitude false magnitude).bits.toNat = magnitude := by
  simp only [ofMagnitude, Bool.false_eq_true, ↓reduceIte, UInt64.toNat_ofNat']
  omega

theorem magnitude_le (fits : significant ≤ 2 ^ 53) (finite : shift ≤ 970) :
    significant + (shift + 1074) * 2 ^ 52 ≤ infinityBits := by
  rw [infinityBits]
  omega

/-- The fields of a double that is a significand of 53 bits, or the power of two above these, times
a power of two. -/
theorem fields_ofMagnitude (normal : 2 ^ 52 ≤ significant) (fits : significant ≤ 2 ^ 53)
    (finite : shift ≤ 970) :
    let x := ofMagnitude false (significant + (shift + 1074) * 2 ^ 52)
    x.isNegative = false ∧ x.isFinite = true ∧
      ((significant < 2 ^ 53 ∧ x.significand = significant ∧ x.exponent = shift) ∨
        (significant = 2 ^ 53 ∧ x.significand = 2 ^ 52 ∧ x.exponent = shift + 1)) := by
  intro x
  have bits : x.bits.toNat = significant + (shift + 1074) * 2 ^ 52 := bits_ofMagnitude (by omega)
  have high : twoTo 63 = 2 ^ 63 := rfl
  have low : twoTo 52 = 2 ^ 52 := rfl
  have magnitude : x.magnitudeBits = significant + (shift + 1074) * 2 ^ 52 := by
    rw [magnitudeBits, bits, high]
    omega
  have field : x.exponentField = (significant + (shift + 1074) * 2 ^ 52) / 2 ^ 52 := by
    rw [exponentField, magnitude, low]
  refine ⟨?_, ?_, ?_⟩
  · rw [isNegative, bits, high, decide_eq_false_iff_not]
    omega
  · rw [isFinite, magnitude, infinityBits, decide_eq_true_iff]
    omega
  · rw [significand, exponent, field, magnitude, low, if_neg (by omega), if_neg (by omega)]
    omega

theorem value_ofMagnitude (normal : 2 ^ 52 ≤ significant) (fits : significant ≤ 2 ^ 53)
    (finite : shift ≤ 970) :
    (ofMagnitude false (significant + (shift + 1074) * 2 ^ 52)).value =
      significant * 2 ^ shift := by
  obtain ⟨sign, _, ⟨_, inside, exponent⟩ | ⟨rfl, inside, exponent⟩⟩ :=
    fields_ofMagnitude normal fits finite
  · rw [value, sign, inside, exponent, zpow_natCast]
    simp
  · rw [value, sign, inside, exponent, zpow_add_one₀ two_ne_zero, zpow_natCast, if_neg nofun]
    push_cast
    ring

/-- A number of more than 53 binary digits is rounded to a multiple of the power of two that leaves
53 of them. -/
theorem ofInt_eq (low : 2 ^ (52 + shift) ≤ number) (high : number < 2 ^ (53 + shift))
    (finite : shift ≤ 970) :
    2 ^ 52 ≤ roundHalfEven number (2 ^ shift) ∧ roundHalfEven number (2 ^ shift) ≤ 2 ^ 53 ∧
      ofInt number =
        ofMagnitude false (roundHalfEven number (2 ^ shift) + (shift + 1074) * 2 ^ 52) := by
  have power : 0 < 2 ^ shift := Nat.two_pow_pos shift
  have least : 2 ^ 52 ≤ number / 2 ^ shift := by
    rw [Nat.le_div_iff_mul_le power, ← pow_add]
    exact low
  have greatest : number / 2 ^ shift < 2 ^ 53 := by
    rw [Nat.div_lt_iff_lt_mul power, ← pow_add]
    exact high
  have rounded := roundHalfEven_cases number (2 ^ shift)
  have normal : 2 ^ 52 ≤ roundHalfEven number (2 ^ shift) := by omega
  have fits : roundHalfEven number (2 ^ shift) ≤ 2 ^ 53 := by omega
  refine ⟨normal, fits, ?_⟩
  have positive : number ≠ 0 := by
    have := Nat.two_pow_pos (52 + shift)
    omega
  have digits : Nat.log2 number = 52 + shift := by
    rw [Nat.log2_eq_iff positive]
    exact ⟨low, by rwa [show 52 + shift + 1 = 53 + shift by omega]⟩
  have floor : floorLog2 number 1 = (52 + shift : ℕ) := by
    simp only [floorLog2, digits, show Nat.log2 1 = 0 from rfl, Nat.cast_zero, sub_zero,
      Int.toNat_natCast, one_mul, if_pos (Int.natCast_nonneg _)]
    exact if_pos (decide_eq_true low)
  have exponent : max (floorLog2 number 1 - 52) (-1074) = shift := by
    rw [floor]
    omega
  have sign : decide ((number : ℤ) < 0) = false := decide_eq_false (by omega)
  rw [ofInt, sign, Int.natAbs_natCast, ofRatio, if_neg positive]
  simp only [exponent, if_pos (Int.natCast_nonneg _), one_mul, Int.toNat_natCast]
  have sum : (shift + 1074 : ℤ).toNat = shift + 1074 := by omega
  rw [sum, show twoTo 52 = 2 ^ 52 from rfl, show twoTo shift = 2 ^ shift from rfl,
    Nat.min_eq_left (magnitude_le fits finite)]

theorem isNearest_ofInt (low : 2 ^ (52 + shift) ≤ number) (high : number < 2 ^ (53 + shift))
    (finite : shift ≤ 970) : (ofInt number).IsNearest number := by
  obtain ⟨normal, fits, same⟩ := ofInt_eq low high finite
  have value := value_ofMagnitude normal fits finite
  obtain ⟨_, isFinite, fields⟩ := fields_ofMagnitude normal fits finite
  rw [← same] at value isFinite fields
  have distance (multiple : ℤ) : |(multiple * 2 ^ shift - number : ℚ)| =
      (multiple * (2 ^ shift : ℕ) - number : ℤ).natAbs := by
    rw [Nat.cast_natAbs]
    push_cast
    rfl
  have mine := distance (roundHalfEven number (2 ^ shift))
  rw [Int.cast_natCast, ← value] at mine
  have nearest := roundHalfEven_nearest number (Nat.two_pow_pos shift)
  -- Doubles that are no multiples are below the least number of as many digits, which is one.
  have further (y : Binary64) (small : |y.value| < 2 ^ (52 + shift)) :
      |(ofInt number).value - number| < |y.value - number| := by
    have bound : (2 ^ (52 + shift) : ℚ) ≤ number := by exact_mod_cast low
    obtain ⟨edge, isEdge⟩ : ∃ edge : ℤ, (edge : ℚ) * 2 ^ shift = 2 ^ (52 + shift) :=
      ⟨2 ^ 52, by rw [pow_add]; norm_num⟩
    have below := (abs_lt.mp small).2
    calc |(ofInt number).value - number| ≤ |(edge : ℚ) * 2 ^ shift - number| := by
          rw [mine, distance]
          exact_mod_cast (nearest edge).1
      _ = number - 2 ^ (52 + shift) := by
          rw [isEdge, abs_of_nonpos (by linarith), neg_sub]
      _ < number - y.value := by linarith
      _ = |y.value - number| := by rw [abs_of_nonpos (by linarith), neg_sub]
  refine ⟨isFinite, fun y _ => ?_, fun y _ tie differs => ?_⟩
  · rcases value_cases y shift with ⟨multiple, known⟩ | small
    · rw [mine, known, distance]
      exact_mod_cast (nearest multiple).1
    · exact (further y small).le
  · rcases value_cases y shift with ⟨multiple, known⟩ | small
    · rw [mine, known, distance] at tie
      have even := (nearest multiple).2 (by exact_mod_cast tie) fun equal => differs (by
        rw [known, equal, value, Int.cast_natCast])
      rcases fields with ⟨_, inside, _⟩ | ⟨_, inside, _⟩
      · rw [inside, even]
      · rw [inside]
        rfl
    · exact absurd tie (further y small).ne

end EntityResolver.Binary64
