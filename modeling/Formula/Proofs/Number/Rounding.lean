import Mathlib.Algebra.Order.Field.Power
import Mathlib.Algebra.Order.Field.Rat
import Mathlib.Tactic.FieldSimp
import Mathlib.Tactic.Linarith
import Mathlib.Tactic.Ring
import Formula.Number.Text

/-! The decimals that are written for binary64 magnitudes. Each lies in the interval of the values
that round to its magnitude. The intervals of two magnitudes have no value in common, because an end
that two of them share belongs to the even one only. -/

namespace Formula.Number

def Decimal.value (d : Decimal) : ℚ :=
  d.digits * 10 ^ d.exponent

namespace Binary

/-- The distance to the next lower magnitude, in halves of the distance to the next higher one. -/
def gap (magnitude : Binary) : Nat :=
  if magnitude.significand = leadingBit ∧ -1074 < magnitude.exponent then 1 else 2

/-- A value rounds to a magnitude. It lies between the middles to both neighbours, and may be one of
them if the significand is even. -/
def Rounds (magnitude : Binary) (value : ℚ) : Prop :=
  let quarter : ℚ := 2 ^ (magnitude.exponent - 2)
  let low := (4 * magnitude.significand - magnitude.gap : ℚ) * quarter
  let high := (4 * magnitude.significand + 2 : ℚ) * quarter
  if magnitude.significand % 2 = 0 then low ≤ value ∧ value ≤ high else low < value ∧ value < high

/-- The magnitudes of binary64 numbers: a significand has at most 53 bits, and fewer only with the
least exponent. -/
structure Normalized (magnitude : Binary) : Prop where
  least : -1074 ≤ magnitude.exponent
  bounded : magnitude.significand < 2 ^ 53
  leading : -1074 < magnitude.exponent → leadingBit ≤ magnitude.significand

theorem gap_le (magnitude : Binary) : magnitude.gap ≤ 2 := by
  unfold gap
  split <;> decide

theorem gap_pos (magnitude : Binary) : 0 < magnitude.gap := by
  unfold gap
  split <;> decide

end Binary

/-! ### Comparisons in whole numbers -/

/-- A power with a negative exponent is brought to whole numbers by the opposite power. -/
theorem zpow_mul_pow_toNat_neg {base : ℚ} (h : base ≠ 0) (n : ℤ) :
    base ^ n * base ^ (-n).toNat = base ^ n.toNat := by
  obtain ⟨k, rfl | rfl⟩ := n.eq_nat_or_neg
  · simp
  · simp [h]

/-- A power of two and a power of ten, brought to one denominator. -/
theorem common_denominator (place quarter : ℤ) : ∃ c : ℚ, 0 < c ∧
    (2 ^ quarter : ℚ) * c = 2 ^ quarter.toNat * 10 ^ (-place).toNat ∧
    (10 ^ place : ℚ) * c = 10 ^ place.toNat * 2 ^ (-quarter).toNat := by
  refine ⟨2 ^ (-quarter).toNat * 10 ^ (-place).toNat, by positivity, ?_, ?_⟩
  · rw [← mul_assoc, zpow_mul_pow_toNat_neg two_ne_zero]
  · rw [mul_left_comm, mul_comm, zpow_mul_pow_toNat_neg (by norm_num)]

namespace RoundingInterval

/-- The comparison in whole numbers is the comparison of the exact values. -/
theorem holds_atPlace_iff {magnitude : Binary} (h : magnitude.significand ≠ 0) (place : ℤ)
    (multiple : Nat) : (atPlace magnitude place).holds multiple = true ↔
      magnitude.Rounds (Decimal.value ⟨multiple, place⟩) := by
  obtain ⟨c, hPos, hTwo, hTen⟩ := common_denominator place (magnitude.exponent - 2)
  have hGap : magnitude.gap ≤ 4 * magnitude.significand := by
    have := magnitude.gap_le
    omega
  have hLow : ((atPlace magnitude place).low : ℚ) =
      (4 * magnitude.significand - magnitude.gap) * 2 ^ (magnitude.exponent - 2) * c := by
    rw [mul_assoc, hTwo, show (atPlace magnitude place).low = (4 * magnitude.significand -
      magnitude.gap) * (2 ^ (magnitude.exponent - 2).toNat * 10 ^ (-place).toNat) from rfl]
    push_cast [hGap]
    rfl
  have hHigh : ((atPlace magnitude place).high : ℚ) =
      (4 * magnitude.significand + 2) * 2 ^ (magnitude.exponent - 2) * c := by
    rw [mul_assoc, hTwo, show (atPlace magnitude place).high = (4 * magnitude.significand + 2) *
      (2 ^ (magnitude.exponent - 2).toNat * 10 ^ (-place).toNat) from rfl]
    push_cast
    rfl
  have hPoint : ((multiple * (atPlace magnitude place).step : Nat) : ℚ) =
      Decimal.value ⟨multiple, place⟩ * c := by
    rw [Decimal.value, mul_assoc, hTen, show (atPlace magnitude place).step =
      10 ^ place.toNat * 2 ^ (-(magnitude.exponent - 2)).toNat from rfl]
    push_cast
    rfl
  have hClosed : (atPlace magnitude place).closed = decide (magnitude.significand % 2 = 0) := rfl
  simp only [holds, Binary.Rounds, hClosed, decide_eq_true_eq]
  split
  · simp only [Bool.and_eq_true, decide_eq_true_eq, ← Nat.cast_le (α := ℚ), hLow, hHigh, hPoint,
      mul_le_mul_iff_left₀ hPos]
  · simp only [Bool.and_eq_true, decide_eq_true_eq, ← Nat.cast_lt (α := ℚ), hLow, hHigh, hPoint,
      mul_lt_mul_iff_left₀ hPos]

theorem holds_of_nearestPoint? {interval : RoundingInterval} {multiple : Nat}
    (h : interval.nearestPoint? = some multiple) : interval.holds multiple = true := by
  unfold nearestPoint? at h
  dsimp only at h
  split at h
  · next hBelow hAbove =>
      obtain rfl := Option.some.inj h
      split
      · exact hAbove
      · exact hBelow
  · next hBelow _ =>
      obtain rfl := Option.some.inj h
      exact hBelow
  · next _ hAbove =>
      obtain rfl := Option.some.inj h
      exact hAbove
  · cases h

end RoundingInterval

/-! ### The shortest decimal -/

/-- Zeros at the end of a significand move into the exponent. -/
theorem Decimal.value_trimmed (bound : Nat) (d : Decimal) : (d.trimmed bound).value = d.value := by
  induction bound generalizing d with
  | zero => rfl
  | succ bound ih =>
      rw [trimmed]
      split
      · next h =>
          obtain ⟨digits, exponent⟩ := d
          obtain ⟨tenth, rfl⟩ := Nat.dvd_of_mod_eq_zero h.2
          rw [ih, value, value, Nat.mul_div_cancel_left _ (by decide), zpow_add_one₀ (by norm_num)]
          push_cast
          ring
      · rfl

namespace Binary

variable {magnitude other : Binary} {value : ℚ}

theorem rounds_exactDecimal (magnitude : Binary) :
    magnitude.Rounds magnitude.exactDecimal.value := by
  have hValue : magnitude.exactDecimal.value =
      4 * magnitude.significand * 2 ^ (magnitude.exponent - 2) := by
    set places := (-magnitude.exponent).toNat
    have hTwo : (2 ^ magnitude.exponent.toNat : ℚ) = 2 ^ magnitude.exponent * 2 ^ places :=
      (zpow_mul_pow_toNat_neg two_ne_zero _).symm
    have hTen : (10 ^ places : ℚ) = 2 ^ places * 5 ^ places := by rw [← mul_pow]; norm_num
    have hExact : magnitude.exactDecimal =
      ⟨magnitude.significand * 2 ^ magnitude.exponent.toNat * 5 ^ places, -places⟩ := rfl
    rw [hExact, Decimal.value, zpow_neg, zpow_natCast, hTen, zpow_sub₀ two_ne_zero]
    push_cast
    rw [hTwo]
    field_simp
  have hQuarter : (0 : ℚ) < 2 ^ (magnitude.exponent - 2) := by positivity
  have hGap : (0 : ℚ) < magnitude.gap := by exact_mod_cast magnitude.gap_pos
  have hLow : (4 * magnitude.significand - magnitude.gap : ℚ) * 2 ^ (magnitude.exponent - 2) <
      4 * magnitude.significand * 2 ^ (magnitude.exponent - 2) :=
    mul_lt_mul_of_pos_right (by linarith) hQuarter
  have hHigh : (4 * magnitude.significand : ℚ) * 2 ^ (magnitude.exponent - 2) <
      (4 * magnitude.significand + 2) * 2 ^ (magnitude.exponent - 2) :=
    mul_lt_mul_of_pos_right (by linarith) hQuarter
  unfold Rounds
  dsimp only
  rw [hValue]
  split
  · exact ⟨hLow.le, hHigh.le⟩
  · exact ⟨hLow, hHigh⟩

/-- By induction on the bound: the search stops only at a decimal that rounds to the magnitude. -/
theorem rounds_of_shortestFrom {order : Int} {bound length : Nat} {d : Decimal}
    (hNonzero : magnitude.significand ≠ 0)
    (h : magnitude.shortestFrom order bound length = some d) : magnitude.Rounds d.value := by
  induction bound generalizing length with
  | zero => cases h
  | succ bound ih =>
      rw [shortestFrom] at h
      split at h
      · next digits hPoint =>
          obtain rfl := Option.some.inj h
          exact (RoundingInterval.holds_atPlace_iff hNonzero _ _).mp
            (RoundingInterval.holds_of_nearestPoint? hPoint)
      · exact ih h

/-- What is written for a magnitude rounds to it. -/
theorem rounds_shortest (magnitude : Binary) : magnitude.Rounds magnitude.shortest.value := by
  unfold shortest
  split
  · next hZero =>
      have hExact : magnitude.exactDecimal.value = 0 := by
        simp [exactDecimal, Decimal.value, hZero]
      have hWritten : (⟨0, 0⟩ : Decimal).value = 0 := by simp [Decimal.value]
      rw [hWritten, ← hExact]
      exact magnitude.rounds_exactDecimal
  · next hNonzero =>
      split
      · next d hFound =>
          rw [Decimal.value_trimmed]
          exact rounds_of_shortestFrom hNonzero hFound
      · exact magnitude.rounds_exactDecimal

/-! ### The intervals of two magnitudes -/

theorem Rounds.bounds (h : magnitude.Rounds value) :
    (4 * magnitude.significand - magnitude.gap : ℚ) * 2 ^ (magnitude.exponent - 2) ≤ value ∧
      value ≤ (4 * magnitude.significand + 2 : ℚ) * 2 ^ (magnitude.exponent - 2) := by
  unfold Rounds at h
  dsimp only at h
  split at h
  · exact h
  · exact ⟨h.1.le, h.2.le⟩

/-- If the significand is odd, the ends themselves do not round to it. -/
theorem Rounds.bounds_of_odd (h : magnitude.Rounds value) (hOdd : magnitude.significand % 2 = 1) :
    (4 * magnitude.significand - magnitude.gap : ℚ) * 2 ^ (magnitude.exponent - 2) < value ∧
      value < (4 * magnitude.significand + 2 : ℚ) * 2 ^ (magnitude.exponent - 2) := by
  rwa [Rounds, if_neg (by omega)] at h

/-- Two neighbours with one exponent are not both even, so that they do not share the end between
them. -/
theorem not_rounds_of_significand_lt (hExponent : magnitude.exponent = other.exponent)
    (hLess : magnitude.significand < other.significand) (h : magnitude.Rounds value) :
    ¬ other.Rounds value := by
  intro h'
  have hQuarter : (0 : ℚ) < 2 ^ (other.exponent - 2) := by positivity
  have hHigh := h.bounds.2
  have hLow := h'.bounds.1
  rw [hExponent] at hHigh
  have hGap : (other.gap : ℚ) ≤ 2 := by exact_mod_cast other.gap_le
  have hNext : (magnitude.significand : ℚ) + 1 ≤ other.significand := by exact_mod_cast hLess
  have hEnds : (4 * magnitude.significand + 2 : ℚ) * 2 ^ (other.exponent - 2) ≤
      (4 * other.significand - other.gap) * 2 ^ (other.exponent - 2) :=
    mul_le_mul_of_nonneg_right (by linarith) hQuarter.le
  have hEven : magnitude.significand % 2 = 0 := by
    by_contra hOdd
    have hStrict := (h.bounds_of_odd (by omega)).2
    rw [hExponent] at hStrict
    linarith
  have hEven' : other.significand % 2 = 0 := by
    by_contra hOdd
    have hStrict := (h'.bounds_of_odd (by omega)).1
    linarith
  have hApart : (magnitude.significand : ℚ) + 2 ≤ other.significand := by
    exact_mod_cast (show magnitude.significand + 2 ≤ other.significand by omega)
  have hBetween : (4 * magnitude.significand + 2 : ℚ) * 2 ^ (other.exponent - 2) <
      (4 * other.significand - other.gap) * 2 ^ (other.exponent - 2) :=
    mul_lt_mul_of_pos_right (by linarith) hQuarter
  linarith

/-- Above the least exponent, no interval begins below the one of a power of two. -/
theorem Normalized.gap_add_le (h : other.Normalized) (hExponent : -1074 < other.exponent) :
    2 ^ 54 - 1 + other.gap ≤ 4 * other.significand := by
  have hBit : leadingBit = 2 ^ 52 := rfl
  have hLeading := h.leading hExponent
  unfold gap
  split <;> omega

/-- The largest magnitude of an exponent is odd, and has no part in the end that it shares with the
least one of the next exponent. -/
theorem not_rounds_of_exponent_lt (hMagnitude : magnitude.Normalized) (hOther : other.Normalized)
    (hLess : magnitude.exponent < other.exponent) (h : magnitude.Rounds value) :
    ¬ other.Rounds value := by
  intro h'
  have hQuarter : (0 : ℚ) < 2 ^ (magnitude.exponent - 2) := by positivity
  have hSpacing : (2 : ℚ) * 2 ^ (magnitude.exponent - 2) ≤ 2 ^ (other.exponent - 2) := by
    rw [← zpow_one_add₀ two_ne_zero]
    exact zpow_le_zpow_right₀ one_le_two (by omega)
  have hLeast : (2 ^ 54 - 1 : ℚ) ≤ 4 * other.significand - other.gap := by
    have hNat := hOther.gap_add_le (lt_of_le_of_lt hMagnitude.least hLess)
    have hCast : ((2 ^ 54 - 1 : Nat) : ℚ) + other.gap ≤ 4 * other.significand := by
      exact_mod_cast hNat
    norm_num at hCast ⊢
    linarith
  have hLow : (2 ^ 54 - 1 : ℚ) * (2 * 2 ^ (magnitude.exponent - 2)) ≤ value :=
    (mul_le_mul hLeast hSpacing (by positivity) (by linarith)).trans h'.bounds.1
  rcases Nat.mod_two_eq_zero_or_one magnitude.significand with hEven | hOdd
  · have hBound : (magnitude.significand : ℚ) + 2 ≤ 2 ^ 53 := by
      have := hMagnitude.bounded
      exact_mod_cast (show magnitude.significand + 2 ≤ 2 ^ 53 by omega)
    have hHigh : (4 * magnitude.significand + 2 : ℚ) * 2 ^ (magnitude.exponent - 2) ≤
        (4 * (2 ^ 53 - 2) + 2) * 2 ^ (magnitude.exponent - 2) :=
      mul_le_mul_of_nonneg_right (by linarith) hQuarter.le
    linarith [h.bounds.2]
  · have hBound : (magnitude.significand : ℚ) + 1 ≤ 2 ^ 53 := by
      exact_mod_cast hMagnitude.bounded
    have hHigh : (4 * magnitude.significand + 2 : ℚ) * 2 ^ (magnitude.exponent - 2) ≤
        (4 * (2 ^ 53 - 1) + 2) * 2 ^ (magnitude.exponent - 2) :=
      mul_le_mul_of_nonneg_right (by linarith) hQuarter.le
    linarith [(h.bounds_of_odd hOdd).2]

/-- A value rounds to one magnitude only. -/
theorem Rounds.unique (hMagnitude : magnitude.Normalized) (hOther : other.Normalized)
    (h : magnitude.Rounds value) (h' : other.Rounds value) : magnitude = other := by
  rcases lt_trichotomy magnitude.exponent other.exponent with hLess | hExponent | hGreater
  · exact absurd h' (not_rounds_of_exponent_lt hMagnitude hOther hLess h)
  · rcases lt_trichotomy magnitude.significand other.significand with hLess | hEqual | hGreater
    · exact absurd h' (not_rounds_of_significand_lt hExponent hLess h)
    · cases magnitude
      cases other
      simp_all
    · exact absurd h (not_rounds_of_significand_lt hExponent.symm hGreater h')
  · exact absurd h (not_rounds_of_exponent_lt hOther hMagnitude hGreater h')

end Binary

end Formula.Number
