import MetadataClient.Decimal.Binary64
import Mathlib.Algebra.Order.Field.Basic
import Mathlib.Algebra.Order.Field.Power
import Mathlib.Data.Rat.Cast.Order
import Mathlib.Tactic.FieldSimp
import Mathlib.Tactic.Linarith
import Mathlib.Tactic.NormNum
import Mathlib.Tactic.Positivity
import Mathlib.Tactic.Ring

/-! Bounds on rounding. A rank stands for a rational number, and the number of the
nearest rank is never more than half a step above the one that was rounded. As long as
that number stays half a step below the first power of two that is out of range, its
rank is finite. -/
namespace MetadataClient.Binary64

def value (rank : Nat) : ℚ :=
  significand rank * 2 ^ exponent rank

/-- Numbers from here on round to no finite one. -/
def limit : ℚ := 2 ^ 1024 - 2 ^ 970

theorem limit_eq : limit = (2 * block - 1 / 2) * 2 ^ (971 : Int) := by
  have split : (2 : ℚ) ^ 1024 = 2 ^ 54 * 2 ^ 970 := by rw [← pow_add]
  have next : (2 : ℚ) ^ (971 : Int) = 2 ^ 970 * 2 := by rw [← pow_succ]; rfl
  rw [limit, split, next]
  generalize (2 : ℚ) ^ 970 = power
  norm_num [block]
  ring

theorem two_pow_le_limit : 2 ^ 64 ≤ limit := by
  have many : (1 : ℚ) ≤ 2 * block - 1 / 2 := by norm_num [block]
  have large : (2 : ℚ) ^ 64 ≤ 2 ^ (971 : Int) := by
    rw [← zpow_natCast]
    exact zpow_le_zpow_right₀ one_le_two (by decide)
  rw [limit_eq]
  exact large.trans (le_mul_of_one_le_left (by positivity) many)

theorem zpow_toNat (base : ℚ) (power : Int) :
    base ^ power = base ^ power.toNat / base ^ (-power).toNat := by
  rcases Int.le_total 0 power with above | below
  · have none : (-power).toNat = 0 := by omega
    rw [none, pow_zero, div_one, ← zpow_natCast, Int.toNat_of_nonneg above]
  · have none : power.toNat = 0 := by omega
    have whole : ((-power).toNat : Int) = -power := by omega
    rw [none, pow_zero, one_div, ← zpow_natCast, whole, zpow_neg, inv_inv]

theorem fraction_denominator_pos (rank : Nat) : 0 < (fraction rank).2 :=
  Nat.two_pow_pos _

theorem fraction_eq_value (rank : Nat) :
    ((fraction rank).1 : ℚ) / (fraction rank).2 = value rank := by
  simp only [fraction, value, zpow_toNat, Nat.pow_eq]
  push_cast
  ring

theorem value_nonneg (rank : Nat) : 0 ≤ value rank := by
  unfold value
  positivity

theorem value_zero : value 0 = 0 := by
  simp [value, significand, block]

/-- A block begins where the one before it ends, so its last number may be given by the
steps of either. -/
theorem value_block (steps count : Nat) (most : count ≤ 2 * block)
    (least : steps = 0 ∨ block ≤ count) :
    value (steps * block + count) = count * 2 ^ ((steps : Int) - 1074) := by
  have positive : 0 < block := by decide
  have double : (2 : ℚ) * 2 ^ ((steps : Int) - 1074) = 2 ^ ((steps : Int) - 1073) := by
    rw [show (steps : Int) - 1073 = steps - 1074 + 1 by omega, zpow_add_one₀ two_ne_zero]
    ring
  rcases Nat.lt_or_ge count block with inFirst | beyond
  · obtain rfl : steps = 0 := least.resolve_right (by omega)
    simp [value, significand, exponent, inFirst]
  · have outside : ¬ steps * block + count < block := by
      have := Nat.zero_le (steps * block)
      omega
    rcases Nat.eq_or_lt_of_le most with rfl | inside
    · have quotient : (steps * block + 2 * block) / block = steps + 2 := by
        rw [← Nat.add_mul, Nat.mul_div_cancel _ positive]
      have remainder : (steps * block + 2 * block) % block = 0 := by
        rw [← Nat.add_mul, Nat.mul_mod_left]
      simp only [value, significand, exponent, outside, if_false, quotient, remainder, Nat.add_zero]
      rw [show ((steps + 2 : Nat) : Int) - 1075 = steps - 1073 by omega, ← double]
      push_cast
      ring
    · obtain ⟨rest, rfl⟩ := Nat.exists_eq_add_of_le beyond
      have small : rest < block := by omega
      have quotient : (steps * block + (block + rest)) / block = steps + 1 := by
        rw [show steps * block + (block + rest) = rest + (steps + 1) * block by ring,
          Nat.add_mul_div_right _ _ positive, Nat.div_eq_of_lt small, Nat.zero_add]
      have remainder : (steps * block + (block + rest)) % block = rest := by
        rw [show steps * block + (block + rest) = rest + (steps + 1) * block by ring,
          Nat.add_mul_mod_self_right, Nat.mod_eq_of_lt small]
      simp only [value, significand, exponent, outside, if_false, quotient, remainder]
      rw [show ((steps + 1 : Nat) : Int) - 1075 = steps - 1074 by omega]

theorem div_le_roundHalfEven (numerator denominator : Nat) :
    numerator / denominator ≤ roundHalfEven numerator denominator := by
  simp only [roundHalfEven]
  split
  · exact Nat.le_refl _
  · exact Nat.le_succ _

theorem roundHalfEven_le (numerator : Nat) {denominator : Nat} (positive : 0 < denominator) :
    (roundHalfEven numerator denominator : ℚ) ≤ numerator / denominator + 1 / 2 := by
  have split := Nat.div_add_mod numerator denominator
  have cast : (numerator : ℚ) =
      denominator * (numerator / denominator : Nat) + (numerator % denominator : Nat) := by
    exact_mod_cast split.symm
  have above : (0 : ℚ) < denominator := by exact_mod_cast positive
  have ratio : (numerator : ℚ) / denominator =
      (numerator / denominator : Nat) + (numerator % denominator : Nat) / denominator := by
    rw [cast]
    field_simp
  rw [ratio]
  simp only [roundHalfEven]
  split
  · have : (0 : ℚ) ≤ (numerator % denominator : Nat) / denominator := by positivity
    linarith
  next high =>
    have half : denominator ≤ 2 * (numerator % denominator) := by omega
    have : (1 : ℚ) / 2 ≤ (numerator % denominator : Nat) / denominator := by
      rw [div_le_div_iff₀ two_pos above, one_mul, mul_comm]
      exact_mod_cast half
    push_cast
    linarith

theorem le_roundHalfEven {number numerator denominator : Nat} (positive : 0 < denominator)
    (reached : (number : ℚ) ≤ numerator / denominator) :
    number ≤ roundHalfEven numerator denominator := by
  rw [le_div_iff₀ (by exact_mod_cast positive)] at reached
  have whole : number ≤ numerator / denominator := by
    rw [Nat.le_div_iff_mul_le positive]
    exact_mod_cast reached
  exact whole.trans (div_le_roundHalfEven numerator denominator)

theorem roundHalfEven_le_of_lt {number numerator denominator : Nat} (positive : 0 < denominator)
    (above : (numerator : ℚ) / denominator < number) :
    roundHalfEven numerator denominator ≤ number := by
  have near := roundHalfEven_le numerator positive
  have less : (roundHalfEven numerator denominator : ℚ) < (number + 1 : Nat) := by
    push_cast
    linarith
  exact Nat.lt_succ_iff.mp (by exact_mod_cast less)

theorem div_div_zpow (numerator denominator : Nat) (power : Int) :
    ((numerator * Nat.pow 2 (-power).toNat : Nat) : ℚ) / (denominator * Nat.pow 2 power.toNat : Nat) =
      numerator / denominator / 2 ^ power := by
  rw [zpow_toNat, div_div_div_eq]
  simp only [Nat.pow_eq, Nat.cast_mul, Nat.cast_pow, Nat.cast_ofNat]

theorem log2_bounds {number : Nat} (positive : 0 < number) :
    (2 : ℚ) ^ number.log2 ≤ number ∧ (number : ℚ) < 2 ^ (number.log2 + 1) := by
  constructor
  · exact_mod_cast Nat.log2_self_le (by omega)
  · exact_mod_cast Nat.lt_log2_self

/-- The logarithms of numerator and denominator leave two possible exponents. -/
theorem log2_sub_bounds {numerator denominator : Nat} (above : 0 < numerator)
    (positive : 0 < denominator) :
    (2 : ℚ) ^ ((numerator.log2 : Int) - denominator.log2 - 1) < numerator / denominator ∧
      (numerator : ℚ) / denominator < 2 ^ ((numerator.log2 : Int) - denominator.log2 + 1) := by
  obtain ⟨numeratorLeast, numeratorMost⟩ := log2_bounds above
  obtain ⟨denominatorLeast, denominatorMost⟩ := log2_bounds positive
  have divisor : (0 : ℚ) < denominator := by exact_mod_cast positive
  have power (size : Nat) : (0 : ℚ) < 2 ^ size := pow_pos two_pos size
  constructor
  · rw [lt_div_iff₀ divisor, zpow_sub₀ two_ne_zero, zpow_sub₀ two_ne_zero, zpow_natCast,
      zpow_natCast, zpow_one, div_div, div_mul_eq_mul_div, div_lt_iff₀ (by positivity), ← pow_succ]
    exact mul_lt_mul' numeratorLeast denominatorMost divisor.le (by exact_mod_cast above)
  · rw [div_lt_iff₀ divisor, show (numerator.log2 : Int) - denominator.log2 + 1 =
        ((numerator.log2 + 1 : Nat) : Int) - denominator.log2 by omega,
      zpow_sub₀ two_ne_zero, zpow_natCast, zpow_natCast, div_mul_eq_mul_div, lt_div_iff₀ (power _)]
    exact mul_lt_mul numeratorMost denominatorLeast (power _) (power _).le

theorem floorLog_spec {numerator denominator : Nat} (above : 0 < numerator)
    (positive : 0 < denominator) :
    (2 : ℚ) ^ floorLog numerator denominator ≤ numerator / denominator ∧
      (numerator : ℚ) / denominator < 2 ^ (floorLog numerator denominator + 1) := by
  obtain ⟨lower, upper⟩ := log2_sub_bounds above positive
  simp only [floorLog]
  generalize (numerator.log2 : Int) - denominator.log2 = guess at lower upper ⊢
  have divisor : (0 : ℚ) < (denominator * Nat.pow 2 guess.toNat : Nat) := by
    exact_mod_cast Nat.mul_pos positive (Nat.two_pow_pos _)
  have decides : denominator * Nat.pow 2 guess.toNat ≤ numerator * Nat.pow 2 (-guess).toNat ↔
      (2 : ℚ) ^ guess ≤ numerator / denominator := by
    rw [← Nat.cast_le (α := ℚ), ← one_le_div divisor, div_div_zpow,
      one_le_div (zpow_pos two_pos _)]
  split
  next fits => exact ⟨decides.mp fits, upper⟩
  next short =>
    refine ⟨lower.le, ?_⟩
    rw [Int.sub_add_cancel]
    exact not_le.mp (short ∘ decides.mpr)

/-- The nearest rank counts steps, the largest that leave at least a block of them. -/
theorem nearestRank_spec {numerator denominator : Nat} (above : 0 < numerator)
    (positive : 0 < denominator) :
    ∃ steps count : Nat, nearestRank numerator denominator = steps * block + count ∧
      (steps : Int) = max 0 (floorLog numerator denominator + 1022) ∧
      count ≤ 2 * block ∧ (steps = 0 ∨ block ≤ count) ∧
      (count : ℚ) ≤ numerator / denominator / 2 ^ ((steps : Int) - 1074) + 1 / 2 := by
  obtain ⟨least, most⟩ := floorLog_spec above positive
  generalize logarithm : floorLog numerator denominator = log at least most ⊢
  obtain ⟨steps, counted⟩ : ∃ steps : Nat, (steps : Int) = max 0 (log + 1022) :=
    ⟨(max 0 (log + 1022)).toNat, Int.toNat_of_nonneg (le_max_left ..)⟩
  have step : max (-1074) (log - 52) = (steps : Int) - 1074 := by omega
  have back : ((steps : Int) - 1074 + 1074).toNat = steps := by omega
  -- In units of a step the fraction has whole numerator and denominator.
  have power : (0 : ℚ) < 2 ^ ((steps : Int) - 1074) := zpow_pos two_pos _
  have ratio := div_div_zpow numerator denominator ((steps : Int) - 1074)
  generalize above' : numerator * Nat.pow 2 (-((steps : Int) - 1074)).toNat = scaled at ratio
  generalize below' : denominator * Nat.pow 2 ((steps : Int) - 1074).toNat = divisor at ratio
  have divisorPositive : 0 < divisor := below' ▸ Nat.mul_pos positive (Nat.two_pow_pos _)
  refine ⟨steps, roundHalfEven scaled divisor, ?_, counted, ?_, ?_,
    ratio ▸ roundHalfEven_le scaled divisorPositive⟩
  · rw [nearestRank, if_neg (by omega), logarithm]
    simp only [step, back, above', below']
  · apply roundHalfEven_le_of_lt divisorPositive
    rw [ratio, div_lt_iff₀ power]
    apply most.trans_le
    rw [show ((2 * block : Nat) : ℚ) = 2 ^ (53 : Int) by norm_num [block],
      ← zpow_add₀ two_ne_zero]
    exact zpow_le_zpow_right₀ one_le_two (by omega)
  · rcases Nat.eq_zero_or_pos steps with none | some
    · left
      exact none
    · right
      apply le_roundHalfEven divisorPositive
      rw [ratio, le_div_iff₀ power]
      refine le_trans ?_ least
      rw [show (block : ℚ) = 2 ^ (52 : Int) by norm_num [block], ← zpow_add₀ two_ne_zero]
      exact zpow_le_zpow_right₀ one_le_two (by omega)

theorem nearestRank_zero (denominator : Nat) : nearestRank 0 denominator = 0 := rfl

theorem nearestRank_lt_overflow {numerator denominator : Nat} (positive : 0 < denominator)
    (inside : (numerator : ℚ) / denominator < limit) :
    nearestRank numerator denominator < overflow := by
  rcases Nat.eq_zero_or_pos numerator with rfl | above
  · rw [nearestRank_zero]
    decide
  obtain ⟨steps, count, rank, counted, most, -, near⟩ := nearestRank_spec above positive
  obtain ⟨least, -⟩ := floorLog_spec above positive
  have bounded : floorLog numerator denominator < 1024 := by
    refine (zpow_lt_zpow_iff_right₀ (one_lt_two (α := ℚ))).mp (least.trans_lt (inside.trans ?_))
    norm_num [limit]
  rw [rank]
  rcases Nat.lt_or_ge steps 2045 with low | high
  · have : steps * block ≤ 2044 * block := Nat.mul_le_mul_right block (by omega)
    simp only [overflow, block] at this most ⊢
    omega
  · -- In the last block the limit is half a step above the last finite number.
    obtain rfl : steps = 2045 := by omega
    have below : (count : ℚ) < (2 * block : Nat) := by
      refine near.trans_lt ?_
      rw [← lt_sub_iff_add_lt, div_lt_iff₀ (zpow_pos two_pos _), Nat.cast_mul]
      exact inside.trans_eq limit_eq
    have : count < 2 * block := by exact_mod_cast below
    simp only [overflow, block] at this ⊢
    omega

/-- From one on a number grows by at most one part in `2 ^ 53`. -/
theorem value_nearestRank_le {numerator denominator : Nat} (positive : 0 < denominator)
    (large : denominator ≤ numerator) :
    value (nearestRank numerator denominator) ≤
      numerator / denominator * (1 + 1 / 2 ^ 53) := by
  have above : 0 < numerator := positive.trans_le large
  obtain ⟨steps, count, rank, counted, most, least, near⟩ := nearestRank_spec above positive
  obtain ⟨fits, reached⟩ := floorLog_spec above positive
  have one : (1 : ℚ) ≤ numerator / denominator := by
    rw [one_le_div (by exact_mod_cast positive)]
    exact_mod_cast large
  have natural : 0 < floorLog numerator denominator + 1 :=
    (zpow_lt_zpow_iff_right₀ (one_lt_two (α := ℚ))).mp
      (by simpa using one.trans_lt reached)
  have power : (0 : ℚ) < 2 ^ ((steps : Int) - 1074) := zpow_pos two_pos _
  rw [rank, value_block steps count most least]
  calc (count : ℚ) * 2 ^ ((steps : Int) - 1074)
      ≤ (numerator / denominator / 2 ^ ((steps : Int) - 1074) + 1 / 2) *
          2 ^ ((steps : Int) - 1074) := mul_le_mul_of_nonneg_right near power.le
    _ = numerator / denominator + 2 ^ (floorLog numerator denominator) * (1 / 2 ^ 53) := by
        rw [show (steps : Int) - 1074 = floorLog numerator denominator - 52 by omega,
          zpow_sub₀ two_ne_zero]
        field_simp
    _ ≤ numerator / denominator * (1 + 1 / 2 ^ 53) := by
        rw [mul_add, mul_one]
        exact add_le_add_right (mul_le_mul_of_nonneg_right fits (by positivity)) _

theorem two_pow_le_value_nearestRank {numerator denominator size : Nat}
    (positive : 0 < denominator) (large : (2 : ℚ) ^ size ≤ numerator / denominator) :
    2 ^ size ≤ value (nearestRank numerator denominator) := by
  have above : 0 < numerator := by
    rcases Nat.eq_zero_or_pos numerator with rfl | above
    · have : (0 : ℚ) < 2 ^ size := by positivity
      simp at large
      linarith
    · exact above
  obtain ⟨steps, count, rank, counted, most, least, -⟩ := nearestRank_spec above positive
  obtain ⟨-, reached⟩ := floorLog_spec above positive
  have natural : (size : Int) < floorLog numerator denominator + 1 := by
    refine (zpow_lt_zpow_iff_right₀ (one_lt_two (α := ℚ))).mp (lt_of_le_of_lt ?_ reached)
    simpa using large
  have filled : block ≤ count := least.resolve_left (by omega)
  rw [rank, value_block steps count most least]
  calc (2 : ℚ) ^ size = 2 ^ (52 : Int) * 2 ^ ((size : Int) - 52) := by
        rw [← zpow_add₀ two_ne_zero, ← zpow_natCast]
        congr 1
        omega
    _ ≤ count * 2 ^ ((steps : Int) - 1074) := by
        refine mul_le_mul ?_ ?_ (by positivity) (by positivity)
        · rw [show (2 : ℚ) ^ (52 : Int) = (block : Nat) by norm_num [block]]
          exact_mod_cast filled
        · exact zpow_le_zpow_right₀ one_le_two (by omega)

theorem value_nearestRank_le_two_pow {numerator denominator size : Nat}
    (positive : 0 < denominator) (small : (numerator : ℚ) / denominator < 2 ^ size) :
    value (nearestRank numerator denominator) ≤ 2 ^ size := by
  rcases Nat.eq_zero_or_pos numerator with rfl | above
  · rw [nearestRank_zero, value_zero]
    positivity
  obtain ⟨steps, count, rank, counted, most, least, -⟩ := nearestRank_spec above positive
  obtain ⟨fits, -⟩ := floorLog_spec above positive
  have natural : floorLog numerator denominator < size := by
    refine (zpow_lt_zpow_iff_right₀ (one_lt_two (α := ℚ))).mp (fits.trans_lt ?_)
    simpa using small
  rw [rank, value_block steps count most least]
  calc (count : ℚ) * 2 ^ ((steps : Int) - 1074)
      ≤ 2 ^ (53 : Int) * 2 ^ ((size : Int) - 53) := by
        refine mul_le_mul ?_ ?_ (by positivity) (by positivity)
        · rw [show (2 : ℚ) ^ (53 : Int) = (2 * block : Nat) by norm_num [block]]
          exact_mod_cast most
        · exact zpow_le_zpow_right₀ one_le_two (by omega)
    _ = 2 ^ size := by
        rw [← zpow_add₀ two_ne_zero, ← zpow_natCast]
        congr 1
        omega

theorem product_lt_overflow {first second : Nat} (inside : value first * value second < limit) :
    product first second < overflow := by
  refine nearestRank_lt_overflow
    (Nat.mul_pos (fraction_denominator_pos first) (fraction_denominator_pos second)) ?_
  rw [Nat.cast_mul, Nat.cast_mul, mul_div_mul_comm, fraction_eq_value, fraction_eq_value]
  exact inside

theorem quotient_ratio (first second : Nat) :
    (((fraction first).1 * (fraction second).2 : Nat) : ℚ) /
      ((fraction first).2 * (fraction second).1 : Nat) = value first / value second := by
  rw [← fraction_eq_value, ← fraction_eq_value, Nat.cast_mul, Nat.cast_mul, div_div_div_eq]

theorem quotient_divisor_pos {first second : Nat} (positive : 0 < value second) :
    0 < (fraction first).2 * (fraction second).1 := by
  refine Nat.mul_pos (fraction_denominator_pos first) (Nat.pos_of_ne_zero ?_)
  intro zero
  rw [← fraction_eq_value, zero, Nat.cast_zero, zero_div] at positive
  exact lt_irrefl 0 positive

theorem two_le_powerOfTen {power : Nat} (positive : 0 < power) :
    2 ≤ value (powerOfTen power) := by
  have large : (2 : ℚ) ^ 1 ≤ (Nat.pow 10 power : Nat) / (1 : Nat) := by
    rw [pow_one, Nat.cast_one, div_one]
    exact_mod_cast (show 2 ≤ 10 by decide).trans (Nat.le_self_pow (by omega) 10)
  exact (pow_one (2 : ℚ)).symm.trans_le (two_pow_le_value_nearestRank Nat.one_pos large)

theorem powerOfTen_le (power : Nat) :
    value (powerOfTen power) ≤ 10 ^ power * (1 + 1 / 2 ^ 53) := by
  refine (value_nearestRank_le Nat.one_pos (Nat.one_le_pow power 10 (by decide))).trans_eq ?_
  rw [Nat.cast_one, div_one]
  norm_cast

theorem quotient_powerOfTen_lt {rank power : Nat} (positive : 0 < power)
    (small : value rank ≤ 2 ^ 64) : value rank / value (powerOfTen power) < 2 ^ 64 := by
  have two := two_le_powerOfTen positive
  rw [div_lt_iff₀ (by linarith)]
  linarith [value_nonneg rank]

/-- Dividing by a power of ten makes no number larger, so it stays in range. -/
theorem scale_lt_overflow_of_neg {rank : Nat} {power : Int} (negative : power < 0)
    (small : value rank ≤ 2 ^ 64) : scale rank power < overflow := by
  have divisor {power : Nat} (positive : 0 < power) :
      0 < (fraction rank).2 * (fraction (powerOfTen power)).1 :=
    quotient_divisor_pos (zero_lt_two.trans_le (two_le_powerOfTen positive))
  rw [scale, if_neg (by omega), if_neg (by omega)]
  split
  · have positive : 0 < (-power).toNat := by omega
    refine nearestRank_lt_overflow (divisor positive) ?_
    rw [quotient_ratio]
    exact (quotient_powerOfTen_lt positive small).trans_le two_pow_le_limit
  · split
    · decide
    · have next : value (quotient rank (powerOfTen 308)) ≤ 2 ^ 64 := by
        refine value_nearestRank_le_two_pow (divisor (by decide)) ?_
        rw [quotient_ratio]
        exact quotient_powerOfTen_lt (by decide) small
      exact scale_lt_overflow_of_neg (by omega) next
termination_by (-power).toNat

theorem value_nearestRank_one_le (number : Nat) :
    value (nearestRank number 1) ≤ number * (1 + 1 / 2 ^ 53) := by
  rcases Nat.eq_zero_or_pos number with rfl | positive
  · rw [nearestRank_zero, value_zero, Nat.cast_zero, zero_mul]
  · have bounded := value_nearestRank_le Nat.one_pos positive
    rwa [Nat.cast_one, div_one] at bounded

/-- Digits that fit sixty-four bits are read as a finite number if there are decimals
behind the point, or if they stand for a number that leaves room for two roundings. -/
theorem ofDecimal?_isSome (negative : Bool) {digits : Nat} {power : Int}
    (fits : digits < 0x10000000000000000)
    (room : power < 0 ∨
      0 ≤ power ∧ power ≤ 308 ∧ (digits : ℚ) * 10 ^ power * (1 + 1 / 2 ^ 53) ^ 2 < limit) :
    (ofDecimal? negative digits power).isSome := by
  have finite : scale (nearestRank digits 1) power < overflow := by
    rcases room with below | ⟨above, most, small⟩
    · refine scale_lt_overflow_of_neg below (value_nearestRank_le_two_pow Nat.one_pos ?_)
      rw [Nat.cast_one, div_one]
      exact_mod_cast fits
    · rw [scale, if_neg (by omega), if_pos above]
      refine product_lt_overflow (lt_of_le_of_lt ?_ small)
      obtain ⟨size, rfl⟩ := Int.eq_ofNat_of_zero_le above
      calc value (nearestRank digits 1) * value (powerOfTen size)
          ≤ digits * (1 + 1 / 2 ^ 53) * (10 ^ size * (1 + 1 / 2 ^ 53)) :=
            mul_le_mul (value_nearestRank_one_le digits) (powerOfTen_le size)
              (value_nonneg _) (by positivity)
        _ = digits * 10 ^ (size : Int) * (1 + 1 / 2 ^ 53) ^ 2 := by
            rw [zpow_natCast]
            ring
  simp only [ofDecimal?, finite, dite_true, Option.isSome_some]

end MetadataClient.Binary64
