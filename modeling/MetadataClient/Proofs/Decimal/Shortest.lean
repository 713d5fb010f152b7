import MetadataClient.Decimal.Shortest
import MetadataClient.Proofs.Decimal.Rounding

/-! Size of the shortest decimal. It is at most half a step above its number, and its
digits are few enough to be read without loss. -/
namespace MetadataClient.Decimal

open Binary64 (value significand exponent)

/-- The step from a number to the next one, in units that make all terms whole. -/
def scaledStep (rank : Nat) (power : Int) : Nat :=
  Nat.pow 2 (exponent rank).toNat * Nat.pow 10 (-power).toNat

def scaledGrid (rank : Nat) (power : Int) : Nat :=
  Nat.pow 2 (-exponent rank).toNat * Nat.pow 10 power.toNat

theorem scaledGrid_pos (rank : Nat) (power : Int) : 0 < scaledGrid rank power :=
  Nat.mul_pos (Nat.two_pow_pos _) (Nat.pow_pos (by decide))

/-- What is found is at most half a step above the number, and where nothing is found
there is no multiple within half a step. -/
theorem candidate?_near (rank : Nat) (power : Int) :
    match candidate? rank power with
    | some digits => 0 < digits ∧ 2 * (digits * scaledGrid rank power) ≤
        (2 * significand rank + 1) * scaledStep rank power
    | none => scaledStep rank power ≤ 2 * scaledGrid rank power := by
  simp only [candidate?, scaledStep, scaledGrid]
  -- The products are only compared, so they may be any numbers and all that is left is linear.
  generalize Nat.pow 2 (exponent rank).toNat * Nat.pow 10 (-power).toNat = step
  generalize Nat.pow 2 (-exponent rank).toNat * Nat.pow 10 power.toNat = grid
  generalize (if significand rank = Binary64.block ∧ exponent rank > -1074 then 4 else 2) = wide
  have cut := Nat.div_mul_le_self (significand rank * step) grid
  have doubled : (2 * significand rank + 1) * step = 2 * (significand rank * step) + step := by ring
  generalize significand rank * step / grid = lower at cut
  generalize significand rank * step = number at cut doubled
  have next : (lower + 1) * grid = lower * grid + grid := by ring
  split
  next digits found =>
    split at found
    next lowerFits =>
      obtain rfl := Option.some.inj found
      simp only [Bool.and_eq_true, decide_eq_true_eq] at lowerFits
      omega
    · split at found
      next upperFits =>
        obtain rfl := Option.some.inj found
        simp only [Bool.or_eq_true, Bool.and_eq_true, decide_eq_true_eq] at upperFits
        omega
      · contradiction
  next found =>
    split at found
    · contradiction
    · split at found
      · contradiction
      next upperMisses =>
        simp only [Bool.or_eq_true, Bool.and_eq_true, decide_eq_true_eq] at upperMisses
        omega

theorem significand_lt (rank : Nat) : significand rank < 2 * Binary64.block := by
  by_cases inFirst : rank < Binary64.block
  · simp only [significand, inFirst, if_true]
    omega
  · have := Nat.mod_lt rank (show 0 < Binary64.block by decide)
    simp only [significand, inFirst, if_false]
    omega

theorem exponent_le {rank : Nat} (finite : rank < Binary64.overflow) : exponent rank ≤ 971 := by
  by_cases inFirst : rank < Binary64.block
  · simp only [exponent, inFirst, if_true]
    decide
  · have : rank / Binary64.block < 2047 := Nat.div_lt_of_lt_mul (Nat.mul_comm 2047 _ ▸ finite)
    simp only [exponent, inFirst, if_false]
    omega

theorem scaledStep_mul (rank : Nat) (power : Int) :
    (scaledStep rank power : ℚ) * 10 ^ power = scaledGrid rank power * 2 ^ exponent rank := by
  simp only [scaledStep, scaledGrid, Nat.pow_eq, Nat.cast_mul, Nat.cast_pow, Nat.cast_ofNat,
    Binary64.zpow_toNat 10 power, Binary64.zpow_toNat 2 (exponent rank)]
  field_simp

theorem candidate?_some_le {rank digits : Nat} {power : Int}
    (found : candidate? rank power = some digits) :
    0 < digits ∧
      (digits : ℚ) * 10 ^ power ≤ (significand rank + 1 / 2) * 2 ^ exponent rank := by
  have near := candidate?_near rank power
  rw [found] at near
  have whole : (2 : ℚ) * (digits * scaledGrid rank power) ≤
      (2 * significand rank + 1) * scaledStep rank power := by exact_mod_cast near.2
  have grid : (0 : ℚ) < scaledGrid rank power := by exact_mod_cast scaledGrid_pos rank power
  have power' : (0 : ℚ) < 10 ^ power := zpow_pos (by norm_num) _
  refine ⟨near.1, le_of_mul_le_mul_right ?_ grid⟩
  calc (digits : ℚ) * 10 ^ power * scaledGrid rank power
      = 2 * (digits * scaledGrid rank power) * 10 ^ power / 2 := by ring
    _ ≤ (2 * significand rank + 1) * scaledStep rank power * 10 ^ power / 2 := by gcongr
    _ = (significand rank + 1 / 2) * (scaledStep rank power * 10 ^ power) := by ring
    _ = (significand rank + 1 / 2) * 2 ^ exponent rank * scaledGrid rank power := by
        rw [scaledStep_mul]
        ring

theorem candidate?_none_le {rank : Nat} {power : Int} (missing : candidate? rank power = none) :
    (2 : ℚ) ^ exponent rank ≤ 2 * 10 ^ power := by
  have near := candidate?_near rank power
  rw [missing] at near
  have whole : (scaledStep rank power : ℚ) ≤ 2 * scaledGrid rank power := by exact_mod_cast near
  have grid : (0 : ℚ) < scaledGrid rank power := by exact_mod_cast scaledGrid_pos rank power
  have power' : (0 : ℚ) < 10 ^ power := zpow_pos (by norm_num) _
  refine le_of_mul_le_mul_right ?_ grid
  calc (2 : ℚ) ^ exponent rank * scaledGrid rank power
      = scaledStep rank power * 10 ^ power := by rw [scaledStep_mul]; ring
    _ ≤ 2 * scaledGrid rank power * 10 ^ power := by gcongr
    _ = 2 * 10 ^ power * scaledGrid rank power := by ring

/-- As long as the multiples are not much closer than the numbers, few digits are enough. -/
theorem searchFrom_bounded {rank : Nat} {power : Int} (tries : Nat)
    (coarse : (2 : ℚ) ^ exponent rank ≤ 20 * 10 ^ power) :
    ((searchFrom rank power tries).digits : ℚ) * 10 ^ (searchFrom rank power tries).power ≤
        (significand rank + 1 / 2) * 2 ^ exponent rank ∧
      (searchFrom rank power tries).digits ≤ 20 * significand rank + 10 ∧
      ((searchFrom rank power tries).digits = 0 → (searchFrom rank power tries).power = 0) := by
  induction tries generalizing power with
  | zero =>
    refine ⟨?_, Nat.zero_le _, fun _ => rfl⟩
    simp only [searchFrom, Nat.cast_zero, zero_mul]
    positivity
  | succ tries ih =>
    rw [searchFrom]
    cases found : candidate? rank power with
    | some digits =>
      obtain ⟨positive, near⟩ := candidate?_some_le found
      refine ⟨near, ?_, fun zero => absurd zero (Nat.ne_of_gt positive)⟩
      have power' : (0 : ℚ) < 10 ^ power := zpow_pos (by norm_num) _
      have few : (digits : ℚ) ≤ 20 * significand rank + 10 := by
        refine le_of_mul_le_mul_right (near.trans ?_) power'
        calc ((significand rank : ℚ) + 1 / 2) * 2 ^ exponent rank
            ≤ (significand rank + 1 / 2) * (20 * 10 ^ power) := by gcongr
          _ = (20 * significand rank + 10) * 10 ^ power := by ring
      exact_mod_cast few
    | none =>
      refine ih ((candidate?_none_le found).trans_eq ?_)
      rw [zpow_sub_one₀ (by norm_num : (10 : ℚ) ≠ 0)]
      ring

theorem shortest_bounded {rank : Nat} (finite : rank < Binary64.overflow) :
    ((shortest rank).digits : ℚ) * 10 ^ (shortest rank).power ≤
        (significand rank + 1 / 2) * 2 ^ exponent rank ∧
      (shortest rank).digits ≤ 20 * significand rank + 10 ∧
      ((shortest rank).digits = 0 → (shortest rank).power = 0) := by
  apply searchFrom_bounded
  have most := exponent_le finite
  calc (2 : ℚ) ^ exponent rank ≤ 2 ^ (990 : Int) := zpow_le_zpow_right₀ one_le_two (by omega)
    _ = (2 ^ 33) ^ 30 := by rw [← pow_mul]; rfl
    _ ≤ (10 ^ 10) ^ 30 := by gcongr; norm_num
    _ = 10 ^ (300 : Int) := by rw [← pow_mul]; rfl
    _ ≤ 10 ^ (309 : Int) := zpow_le_zpow_right₀ (by norm_num) (by decide)
    _ ≤ 20 * 10 ^ (309 : Int) := le_mul_of_one_le_left (by positivity) (by norm_num)

theorem shortest_digits_lt {rank : Nat} (finite : rank < Binary64.overflow) :
    (shortest rank).digits < 1000000000000000000 := by
  have few := (shortest_bounded finite).2.1
  have small := significand_lt rank
  simp only [Binary64.block] at small
  omega

/-- The last two numbers apart, half a step above a number is two steps and a half or more
below the first power of two that is out of range. -/
theorem half_step_above_le {rank : Nat} (inner : rank + 2 < Binary64.overflow) :
    ((significand rank : ℚ) + 1 / 2) * 2 ^ exponent rank ≤
      (2 * Binary64.block - 5 / 2) * 2 ^ (971 : Int) := by
  have most := exponent_le (by omega : rank < Binary64.overflow)
  rcases lt_or_ge (exponent rank) 971 with low | high
  · have bounded : (significand rank : ℚ) + 1 / 2 ≤ 2 * Binary64.block := by
      have : ((significand rank + 1 : Nat) : ℚ) ≤ (2 * Binary64.block : Nat) := by
        exact_mod_cast significand_lt rank
      push_cast at this
      linarith
    calc ((significand rank : ℚ) + 1 / 2) * 2 ^ exponent rank
        ≤ 2 * Binary64.block * 2 ^ (970 : Int) := by
          refine mul_le_mul bounded ?_ (by positivity) (by positivity)
          exact zpow_le_zpow_right₀ one_le_two (by omega)
      _ = (Binary64.block : ℚ) * 2 ^ (971 : Int) := by
          rw [show (971 : Int) = 970 + 1 by rfl, zpow_add_one₀ two_ne_zero]
          ring
      _ ≤ (2 * Binary64.block - 5 / 2) * 2 ^ (971 : Int) := by
          refine mul_le_mul_of_nonneg_right ?_ (by positivity)
          norm_num [Binary64.block]
  · have last : significand rank + 3 ≤ 2 * Binary64.block := by
      by_cases inFirst : rank < Binary64.block
      · simp only [exponent, inFirst, if_true] at high
        omega
      · simp only [exponent, significand, inFirst, if_false] at high ⊢
        simp only [Binary64.overflow, Binary64.block] at inner high ⊢
        omega
    have bounded : (significand rank : ℚ) + 1 / 2 ≤ 2 * Binary64.block - 5 / 2 := by
      have : ((significand rank + 3 : Nat) : ℚ) ≤ (2 * Binary64.block : Nat) := by
        exact_mod_cast last
      push_cast at this
      linarith
    refine mul_le_mul bounded ?_ (by positivity) (by norm_num [Binary64.block])
    exact zpow_le_zpow_right₀ one_le_two most

/-- But for the last two numbers, the shortest decimal leaves room for two roundings. -/
theorem shortest_room {rank : Nat} (inner : rank + 2 < Binary64.overflow) :
    ((shortest rank).digits : ℚ) * 10 ^ (shortest rank).power * (1 + 1 / 2 ^ 53) ^ 2 <
      Binary64.limit := by
  have near := (shortest_bounded (by omega : rank < Binary64.overflow)).1
  rw [Binary64.limit_eq]
  calc ((shortest rank).digits : ℚ) * 10 ^ (shortest rank).power * (1 + 1 / 2 ^ 53) ^ 2
      ≤ (2 * Binary64.block - 5 / 2) * 2 ^ (971 : Int) * (1 + 1 / 2 ^ 53) ^ 2 :=
        mul_le_mul_of_nonneg_right (near.trans (half_step_above_le inner)) (by positivity)
    _ = (2 * (Binary64.block : ℚ) - 5 / 2) * (1 + 1 / 2 ^ 53) ^ 2 * 2 ^ (971 : Int) := by ring
    _ < (2 * (Binary64.block : ℚ) - 1 / 2) * 2 ^ (971 : Int) := by
        refine mul_lt_mul_of_pos_right ?_ (by positivity)
        norm_num [Binary64.block]

theorem limit_le : Binary64.limit ≤ 10 ^ (309 : Int) := by
  calc Binary64.limit ≤ 2 ^ 1024 := sub_le_self _ (by positivity)
    _ = 2 * (2 ^ 93) ^ 11 := by rw [← pow_mul, ← pow_succ']
    _ ≤ 10 * (10 ^ 28) ^ 11 := by
        refine mul_le_mul (by norm_num) (pow_le_pow_left₀ (by positivity) ?_ 11)
          (by positivity) (by positivity)
        norm_num
    _ = 10 ^ (309 : Int) := by rw [← pow_mul, ← pow_succ']; rfl

theorem shortest_power_le {rank : Nat} (inner : rank + 2 < Binary64.overflow) :
    (shortest rank).power ≤ 308 := by
  obtain ⟨-, -, zero⟩ := shortest_bounded (by omega : rank < Binary64.overflow)
  rcases Nat.eq_zero_or_pos (shortest rank).digits with none | some
  · rw [zero none]
    decide
  · have one : (1 : ℚ) ≤ (shortest rank).digits := by exact_mod_cast some
    have below : (10 : ℚ) ^ (shortest rank).power < 10 ^ (309 : Int) := by
      refine lt_of_le_of_lt ?_ ((shortest_room inner).trans_le limit_le)
      rw [mul_right_comm]
      refine le_mul_of_one_le_left (by positivity) ?_
      exact one_le_mul_of_one_le_of_one_le one (by norm_num)
    have := (zpow_lt_zpow_iff_right₀ (by norm_num : (1 : ℚ) < 10)).mp below
    omega

/-- The shortest decimal of a finite number reads back as a finite number. -/
theorem ofDecimal?_shortest_isSome (negative : Bool) {rank : Nat}
    (finite : rank < Binary64.overflow) :
    (Binary64.ofDecimal? negative (shortest rank).digits (shortest rank).power).isSome := by
  have small := shortest_digits_lt finite
  by_cases inner : rank + 2 < Binary64.overflow
  · refine Binary64.ofDecimal?_isSome negative (by omega) ?_
    rcases lt_or_ge (shortest rank).power 0 with below | above
    · exact .inl below
    · exact .inr ⟨above, shortest_power_le inner, shortest_room inner⟩
  · -- The bounds leave out the last two numbers, for which the rounding is carried out.
    have last : rank = Binary64.overflow - 1 ∨ rank = Binary64.overflow - 2 := by omega
    rcases last with rfl | rfl <;> cases negative <;> decide +kernel

end MetadataClient.Decimal
