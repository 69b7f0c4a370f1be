import Mathlib.Algebra.Order.Field.Basic
import Mathlib.Algebra.Order.Field.Power
import Mathlib.Tactic.Linarith
import EquationPad.Decimal.Layout
import EquationPad.Proofs.NumberRange

/-! Rounding to a number of digits. The quotient of two naturals is rounded to the nearest integer
and to the even one of two, which says all about it. So a decimal keeps no more digits than asked
for and loses none that it could keep, and it is off by half a unit of its last digit at most. -/

namespace EquationPad

/-! ## Integers -/

/-- `q` is an integer nearest to the quotient of `n` by `d`, the even one if two are. -/
structure NearestEven (n d q : Nat) : Prop where
  above : 2 * n ≤ 2 * (q * d) + d
  below : 2 * (q * d) ≤ 2 * n + d
  even : 2 * n = 2 * (q * d) + d ∨ 2 * (q * d) = 2 * n + d → q % 2 = 0

namespace NearestEven

variable {n d q m : Nat}

theorem le_of_mul_le (h : NearestEven n d q) (hd : 0 < d) (hm : m * d ≤ n) : m ≤ q := by
  by_contra hlt
  have hmul : (q + 1) * d ≤ m * d := Nat.mul_le_mul_right d (by omega)
  have habove := h.above
  rw [Nat.add_mul] at hmul
  omega

theorem le_of_le_mul (h : NearestEven n d q) (hd : 0 < d) (hm : n ≤ m * d) : q ≤ m := by
  by_contra hlt
  have hmul : (m + 1) * d ≤ q * d := Nat.mul_le_mul_right d (by omega)
  have hbelow := h.below
  rw [Nat.add_mul] at hmul
  omega

theorem unique {q' : Nat} (h : NearestEven n d q) (h' : NearestEven n d q') (hd : 0 < d) :
    q = q' := by
  wlog hlt : q < q' generalizing q q'
  · rcases Nat.lt_or_ge q' q with hgt | hle
    · exact (this h' h hgt).symm
    · omega
  -- two that differ lie half a unit below and half a unit above, and only one of them is even
  have hmul : (q + 1) * d ≤ q' * d := Nat.mul_le_mul_right d hlt
  have habove := h.above
  have hbelow := h'.below
  rw [Nat.add_mul] at hmul
  have hq := h.even (.inl (by omega))
  have hq' := h'.even (.inr (by omega))
  have hnext : q' ≤ q + 1 := Nat.le_of_mul_le_mul_right (by rw [Nat.add_mul]; omega) hd
  omega

end NearestEven

theorem nearestEven_roundHalfEven (n : Nat) {d : Nat} (hd : 0 < d) :
    NearestEven n d (roundHalfEven n d) := by
  have hsplit : n = n / d * d + n % d := by rw [Nat.mul_comm, Nat.div_add_mod]
  have hrest : n % d < d := Nat.mod_lt n hd
  have hnext : (n / d + 1) * d = n / d * d + d := Nat.succ_mul _ _
  unfold roundHalfEven
  dsimp only
  split
  · constructor <;> omega
  · split
    · constructor <;> omega
    · split
      · constructor <;> omega
      · constructor <;> omega

/-- Rounding is to nearest, ties to even, and to nothing else. -/
theorem roundHalfEven_eq_iff {n d q : Nat} (hd : 0 < d) :
    roundHalfEven n d = q ↔ NearestEven n d q := by
  constructor
  · rintro rfl
    exact nearestEven_roundHalfEven n hd
  · exact fun h => (nearestEven_roundHalfEven n hd).unique h hd

namespace Decimal

/-! ## Rounding -/

/-- `r` is the decimal `d` in at most `precision` digits. A power of ten may have one digit more,
which is a zero. -/
structure RoundsTo (precision : Nat) (d r : Decimal) : Prop where
  digits_le : r.digits ≤ 10 ^ precision
  full : 10 ^ precision ≤ d.digits → 10 ^ (precision - 1) ≤ r.digits
  kept : d.digits < 10 ^ precision → r = d
  error : |r.exact - d.exact| ≤ 10 ^ r.exponent / 2
  relative : |r.exact - d.exact| ≤ d.exact * 10 ^ (1 - precision : Int) / 2
  even : |r.exact - d.exact| = 10 ^ r.exponent / 2 → r.digits % 2 = 0

/-- How many digits there are too many. -/
def excess (precision : Nat) (d : Decimal) : Nat := (showNat d.digits).length - precision

theorem lt_ten_pow_iff {n k : Nat} (hk : 0 < k) : n < 10 ^ k ↔ (showNat n).length ≤ k :=
  (Nat.length_toDigits_le_iff (by decide) hk).symm

variable {precision : Nat}

theorem exponent_round (precision : Nat) (d : Decimal) :
    (d.round precision).exponent = d.exponent + excess precision d := rfl

theorem nearestEven_digits_round (precision : Nat) (d : Decimal) :
    NearestEven d.digits (10 ^ excess precision d) (d.round precision).digits :=
  nearestEven_roundHalfEven d.digits (by positivity)

theorem digits_round_le (hp : 0 < precision) (d : Decimal) :
    (d.round precision).digits ≤ 10 ^ precision := by
  apply (nearestEven_digits_round precision d).le_of_le_mul (by positivity)
  have hlength : (showNat d.digits).length ≤ precision + excess precision d := by
    rw [excess]; omega
  rw [← pow_add]
  exact ((lt_ten_pow_iff (by omega)).mpr hlength).le

/-- What is rounded has all the digits that are kept. -/
theorem mul_pow_excess_le (hp : 0 < precision) {d : Decimal} (hmany : 10 ^ precision ≤ d.digits) :
    10 ^ (precision - 1) * 10 ^ excess precision d ≤ d.digits := by
  have hlength : ¬(showNat d.digits).length ≤ precision := fun hle =>
    absurd ((lt_ten_pow_iff hp).mpr hle) (by omega)
  have hpower : precision - 1 + excess precision d < (showNat d.digits).length := by
    rw [excess]; omega
  have hpositive : 0 < precision - 1 + excess precision d := by rw [excess]; omega
  rw [← pow_add]
  by_contra hlow
  have hshort := (lt_ten_pow_iff hpositive).mp (Nat.lt_of_not_le hlow)
  omega

theorem le_digits_round (hp : 0 < precision) {d : Decimal} (hmany : 10 ^ precision ≤ d.digits) :
    10 ^ (precision - 1) ≤ (d.round precision).digits :=
  (nearestEven_digits_round precision d).le_of_mul_le (by positivity) (mul_pow_excess_le hp hmany)

theorem round_of_lt (hp : 0 < precision) {d : Decimal} (hfew : d.digits < 10 ^ precision) :
    d.round precision = d := by
  have hzero : excess precision d = 0 := by
    have hlength := (lt_ten_pow_iff hp).mp hfew
    rw [excess]; omega
  have hnearest := nearestEven_digits_round precision d
  rw [hzero, pow_zero] at hnearest
  have hdigits : (d.round precision).digits = d.digits :=
    hnearest.unique (by constructor <;> omega) one_pos
  have hexponent := exponent_round precision d
  rw [hzero, Nat.cast_zero, add_zero] at hexponent
  calc d.round precision
      = ⟨(d.round precision).digits, (d.round precision).exponent⟩ := rfl
    _ = ⟨d.digits, d.exponent⟩ := by rw [hdigits, hexponent]

theorem ten_zpow_exponent_round (precision : Nat) (d : Decimal) :
    (10 : ℚ) ^ (d.round precision).exponent = 10 ^ excess precision d * 10 ^ d.exponent := by
  rw [exponent_round, zpow_add₀ (by norm_num), zpow_natCast, mul_comm]

/-- How far rounding is off, in units of the last digit that there was. -/
theorem abs_exact_round_sub (precision : Nat) (d : Decimal) :
    |(d.round precision).exact - d.exact| =
      |((d.round precision).digits * 10 ^ excess precision d - d.digits : ℚ)| *
        10 ^ d.exponent := by
  have hunit : (0 : ℚ) < 10 ^ d.exponent := by positivity
  have hsub : (d.round precision).exact - d.exact =
      ((d.round precision).digits * 10 ^ excess precision d - d.digits) * 10 ^ d.exponent := by
    rw [exact, exact, ten_zpow_exponent_round]
    ring
  rw [hsub, abs_mul, abs_of_pos hunit]

theorem error_round_le (precision : Nat) (d : Decimal) :
    |(d.round precision).exact - d.exact| ≤ 10 ^ (d.round precision).exponent / 2 := by
  have hnearest := nearestEven_digits_round precision d
  have habove : (2 * d.digits : ℚ) ≤
      2 * ((d.round precision).digits * 10 ^ excess precision d) + 10 ^ excess precision d := by
    exact_mod_cast hnearest.above
  have hbelow : (2 * ((d.round precision).digits * 10 ^ excess precision d) : ℚ) ≤
      2 * d.digits + 10 ^ excess precision d := by
    exact_mod_cast hnearest.below
  rw [abs_exact_round_sub, ten_zpow_exponent_round, mul_div_right_comm]
  refine mul_le_mul_of_nonneg_right (abs_le.mpr ⟨?_, ?_⟩) (by positivity)
  · linarith
  · linarith

/-- The first digit is not zero, so half a unit of the last one is little beside the number. -/
theorem relative_error_round_le (hp : 0 < precision) (d : Decimal) :
    |(d.round precision).exact - d.exact| ≤ d.exact * 10 ^ (1 - precision : Int) / 2 := by
  rcases Nat.lt_or_ge d.digits (10 ^ precision) with hfew | hmany
  · have hexact : 0 ≤ d.exact * 10 ^ (1 - precision : Int) / 2 := by
      rw [exact]
      positivity
    rwa [round_of_lt hp hfew, sub_self, abs_zero]
  · have hlow : (10 : ℚ) ^ (precision - 1) * 10 ^ excess precision d ≤ d.digits := by
      exact_mod_cast mul_pow_excess_le hp hmany
    have hone : (10 : ℚ) ^ (precision - 1) * 10 ^ (1 - precision : Int) = 1 := by
      rw [← zpow_natCast, ← zpow_add₀ (by norm_num), show ((precision - 1 : Nat) : Int) +
        (1 - precision) = 0 by omega, zpow_zero]
    calc |(d.round precision).exact - d.exact|
        ≤ 10 ^ (d.round precision).exponent / 2 := error_round_le precision d
      _ = 10 ^ excess precision d / 2 * 10 ^ d.exponent := by
          rw [ten_zpow_exponent_round, mul_div_right_comm]
      _ = 10 ^ (precision - 1) * 10 ^ excess precision d * 10 ^ (1 - precision : Int) / 2 *
            10 ^ d.exponent := by rw [mul_right_comm, hone, one_mul]
      _ ≤ d.digits * 10 ^ (1 - precision : Int) / 2 * 10 ^ d.exponent := by gcongr
      _ = d.exact * 10 ^ (1 - precision : Int) / 2 := by rw [exact]; ring

theorem even_round_of_tie {d : Decimal}
    (h : |(d.round precision).exact - d.exact| = 10 ^ (d.round precision).exponent / 2) :
    (d.round precision).digits % 2 = 0 := by
  have hunit : (10 : ℚ) ^ d.exponent ≠ 0 := by positivity
  have hpositive : (0 : ℚ) ≤ 10 ^ excess precision d / 2 := by positivity
  rw [abs_exact_round_sub, ten_zpow_exponent_round, mul_div_right_comm] at h
  apply (nearestEven_digits_round precision d).even
  rcases (abs_eq hpositive).mp (mul_right_cancel₀ hunit h) with hup | hdown
  · right
    have hcast : (2 * ((d.round precision).digits * 10 ^ excess precision d) : ℚ) =
        2 * d.digits + 10 ^ excess precision d := by linarith
    exact_mod_cast hcast
  · left
    have hcast : (2 * d.digits : ℚ) =
        2 * ((d.round precision).digits * 10 ^ excess precision d) +
          10 ^ excess precision d := by linarith
    exact_mod_cast hcast

/-- **Rounding a decimal.** It has the digits asked for and no more, a number that has no more of
them is kept, and the error is half a unit of the last digit at most. -/
theorem roundsTo_round (hp : 0 < precision) (d : Decimal) :
    RoundsTo precision d (d.round precision) where
  digits_le := digits_round_le hp d
  full := le_digits_round hp
  kept := round_of_lt hp
  error := error_round_le precision d
  relative := relative_error_round_le hp d
  even := even_round_of_tie

end Decimal

end EquationPad
