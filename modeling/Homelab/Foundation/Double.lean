import Mathlib.Algebra.Order.Field.Rat
import Mathlib.Algebra.Order.Floor.Ring
import Mathlib.Data.Rat.Floor
import Mathlib.Tactic.Positivity
import Mathlib.Tactic.Linarith
import Mathlib.Algebra.Order.Archimedean.Basic
import Mathlib.Tactic.FieldSimp
import Mathlib.Algebra.Order.Field.Power
import Mathlib.Data.Nat.Log

/-! # Floating-point numbers

A number with a fraction is the double next to it, and of two that are as near the even one.
-/

namespace Homelab.Double

/-- The whole number next to a fraction, the even one of two. -/
def roundEven (value : ℚ) : ℤ :=
  let whole := ⌊value⌋
  let rest := value - whole
  if rest < 1 / 2 then whole
  else if 1 / 2 < rest then whole + 1
  else if whole % 2 = 0 then whole
  else whole + 1

/-- The exponent of the last of the 53 bits of a positive number, or of the last bit that
doubles have. -/
def lastBit (value : ℚ) : ℤ :=
  let guess : ℤ := (value.num.natAbs.log2 : ℤ) - value.den.log2
  max ((if value < (2 : ℚ) ^ guess then guess - 1 else guess) - 52) (-1074)

/-- The double next to a positive number, with no bound to its size. -/
def nearestPositive (value : ℚ) : ℚ :=
  roundEven (value / (2 : ℚ) ^ lastBit value) * (2 : ℚ) ^ lastBit value

/-- The double next to a number, unless it is too large. -/
def nearest (value : ℚ) : Option ℚ :=
  if value = 0 then some 0
  else
    let size := nearestPositive |value|
    if (2 : ℚ) ^ 1024 ≤ size then none
    else some (if value < 0 then -size else size)

example : nearest (1 / 3) = some (6004799503160661 / 2 ^ 54) := by decide +kernel

/-! ## Size -/

theorem roundEven_le (value : ℚ) : (roundEven value : ℚ) ≤ value + 1 / 2 := by
  have below := Int.floor_le value
  rw [roundEven]
  split
  · linarith
  split
  · push_cast
    linarith
  split
  · linarith
  · push_cast
    linarith

theorem le_roundEven (value : ℚ) : value - 1 / 2 ≤ roundEven value := by
  have above := Int.lt_floor_add_one value
  rw [roundEven]
  split
  · linarith
  split
  · push_cast
    linarith
  split
  · linarith
  · push_cast
    linarith

theorem roundEven_nonneg {value : ℚ} (positive : 0 ≤ value) : 0 ≤ roundEven value := by
  have whole := Int.floor_nonneg.mpr positive
  rw [roundEven]
  split
  · exact whole
  split
  · omega
  split
  · exact whole
  · omega

/-- The exponent is not guessed too large by more than one. -/
theorem guess_le {value : ℚ} (positive : 0 < value) :
    (2 : ℚ) ^ ((value.num.natAbs.log2 : ℤ) - value.den.log2 - 1) ≤ value := by
  have num : 0 < value.num := Rat.num_pos.mpr positive
  have low : 2 ^ value.num.natAbs.log2 ≤ value.num.natAbs := Nat.log2_self_le (by omega)
  have high : value.den < 2 ^ (value.den.log2 + 1) := Nat.lt_log2_self
  have low' : (2 : ℚ) ^ value.num.natAbs.log2 ≤ value.num := by
    have abs : ((value.num.natAbs : ℤ) : ℚ) = value.num := by
      rw [Int.natAbs_of_nonneg num.le]
    rw [← abs]
    exact_mod_cast low
  have high' : (value.den : ℚ) ≤ 2 ^ (value.den.log2 + 1) := by
    exact_mod_cast high.le
  have den : (0 : ℚ) < value.den := by
    exact_mod_cast value.den_pos
  have split : (2 : ℚ) ^ ((value.num.natAbs.log2 : ℤ) - value.den.log2 - 1) =
      2 ^ value.num.natAbs.log2 / 2 ^ (value.den.log2 + 1) := by
    rw [sub_sub, zpow_sub₀ (by norm_num), zpow_natCast]
    norm_cast
  rw [split]
  calc (2 : ℚ) ^ value.num.natAbs.log2 / 2 ^ (value.den.log2 + 1)
      ≤ value.num / value.den :=
        div_le_div₀ (by exact_mod_cast num.le) low' den high'
    _ = value := Rat.num_div_den value

/-- The last bit is no larger than the number, or than one. -/
theorem lastBit_le {value : ℚ} (positive : 0 < value) : (2 : ℚ) ^ lastBit value ≤ value + 1 := by
  have two : (1 : ℚ) ≤ 2 := by norm_num
  rw [lastBit]
  generalize guessed : (value.num.natAbs.log2 : ℤ) - value.den.log2 = guess
  have top : (2 : ℚ) ^ (if value < (2 : ℚ) ^ guess then guess - 1 else guess) ≤ value := by
    split
    · rw [← guessed]
      exact guess_le positive
    · next large => exact not_lt.mp large
  generalize (if value < (2 : ℚ) ^ guess then guess - 1 else guess) = bit at top ⊢
  rcases max_choice (bit - 52) (-1074) with same | same
  · rw [same]
    have less : (2 : ℚ) ^ (bit - 52) ≤ 2 ^ bit := zpow_le_zpow_right₀ two (by omega)
    linarith
  · rw [same]
    have less : (2 : ℚ) ^ (-1074 : ℤ) ≤ 2 ^ (0 : ℤ) := zpow_le_zpow_right₀ two (by omega)
    rw [zpow_zero] at less
    linarith

theorem nearestPositive_le {value : ℚ} (positive : 0 < value) :
    nearestPositive value ≤ value + (value + 1) / 2 := by
  have bit : (0 : ℚ) < 2 ^ lastBit value := zpow_pos (by norm_num) _
  have step := mul_le_mul_of_nonneg_right (roundEven_le (value / 2 ^ lastBit value)) bit.le
  have cancel : value / 2 ^ lastBit value * 2 ^ lastBit value = value :=
    div_mul_cancel₀ value bit.ne'
  have size := lastBit_le positive
  rw [nearestPositive]
  rw [add_mul, cancel] at step
  linarith

theorem nearestPositive_nonneg {value : ℚ} (positive : 0 < value) : 0 ≤ nearestPositive value := by
  have bit : (0 : ℚ) < 2 ^ lastBit value := zpow_pos (by norm_num) _
  have whole : (0 : ℚ) ≤ roundEven (value / 2 ^ lastBit value) := by
    exact_mod_cast roundEven_nonneg (div_pos positive bit).le
  exact mul_nonneg whole bit.le

/-- Numbers well inside the range of 64 bits stay inside it. -/
theorem nearest_small {value : ℚ} (small : |value| < 2 ^ 62) :
    ∃ double, nearest value = some double ∧ double < 2 ^ 63 ∧ -2 ^ 63 ≤ double := by
  by_cases zero : value = 0
  · exact ⟨0, if_pos zero, by norm_num, by norm_num⟩
  · have positive : 0 < |value| := abs_pos.mpr zero
    have low := nearestPositive_nonneg positive
    have high := nearestPositive_le positive
    have bound : nearestPositive |value| < 2 ^ 63 := by linarith
    have room : nearestPositive |value| < (2 : ℚ) ^ 1024 :=
      bound.trans (pow_lt_pow_right₀ (by norm_num) (by norm_num))
    refine ⟨if value < 0 then -nearestPositive |value| else nearestPositive |value|, ?_, ?_, ?_⟩
    · rw [nearest, if_neg zero]
      simp only
      rw [if_neg (not_le.mpr room)]
    · split <;> linarith
    · split <;> linarith

/-! ## Precision -/

theorem lt_guess {value : ℚ} (positive : 0 < value) :
    value < (2 : ℚ) ^ ((value.num.natAbs.log2 : ℤ) - value.den.log2 + 1) := by
  have num : 0 < value.num := Rat.num_pos.mpr positive
  have high : value.num.natAbs < 2 ^ (value.num.natAbs.log2 + 1) := Nat.lt_log2_self
  have low : 2 ^ value.den.log2 ≤ value.den := Nat.log2_self_le value.den_ne_zero
  have high' : (value.num : ℚ) < 2 ^ (value.num.natAbs.log2 + 1) := by
    have abs : ((value.num.natAbs : ℤ) : ℚ) = value.num := by
      rw [Int.natAbs_of_nonneg num.le]
    rw [← abs]
    exact_mod_cast high
  have low' : (2 : ℚ) ^ value.den.log2 ≤ value.den := by
    exact_mod_cast low
  have split : (2 : ℚ) ^ ((value.num.natAbs.log2 : ℤ) - value.den.log2 + 1) =
      2 ^ (value.num.natAbs.log2 + 1) / 2 ^ value.den.log2 := by
    rw [sub_add_eq_add_sub, zpow_sub₀ (by norm_num)]
    norm_cast
  rw [split]
  calc value = value.num / value.den := (Rat.num_div_den value).symm
    _ < 2 ^ (value.num.natAbs.log2 + 1) / 2 ^ value.den.log2 :=
        div_lt_div₀ high' low' (by positivity) (by positivity)

/-- The last bit is 52 places below the first one. -/
theorem lastBit_eq {value : ℚ} {first : ℤ} (low : (2 : ℚ) ^ first ≤ value)
    (high : value < (2 : ℚ) ^ (first + 1)) : lastBit value = max (first - 52) (-1074) := by
  have positive : 0 < value := (zpow_pos (by norm_num) first).trans_le low
  have two : (1 : ℚ) < 2 := by norm_num
  have below := (zpow_lt_zpow_iff_right₀ two).mp ((guess_le positive).trans_lt high)
  have above := (zpow_lt_zpow_iff_right₀ two).mp (low.trans_lt (lt_guess positive))
  rw [lastBit]
  generalize (value.num.natAbs.log2 : ℤ) - value.den.log2 = guess at below above ⊢
  have bit : (if value < (2 : ℚ) ^ guess then guess - 1 else guess) = first := by
    obtain same | more : guess = first ∨ guess = first + 1 := by omega
    · rw [same, if_neg (not_lt.mpr low)]
    · rw [more, if_pos high, add_sub_cancel_right]
  rw [bit]

theorem nearestPositive_eq {value : ℚ} {first : ℤ} (normal : -1022 ≤ first)
    (low : (2 : ℚ) ^ first ≤ value) (high : value < (2 : ℚ) ^ (first + 1)) :
    nearestPositive value =
      roundEven (value / 2 ^ (first - 52)) * (2 : ℚ) ^ (first - 52) := by
  rw [nearestPositive, lastBit_eq low high, max_eq_left (by omega)]

/-- A number of full precision is moved by no more than half of its last bit. -/
theorem nearestPositive_close {value : ℚ} {first : ℤ} (normal : -1022 ≤ first)
    (low : (2 : ℚ) ^ first ≤ value) :
    value - value / 2 ^ 53 ≤ nearestPositive value ∧
      nearestPositive value ≤ value + value / 2 ^ 53 := by
  have positive : 0 < value := (zpow_pos (by norm_num) first).trans_le low
  rcases exists_mem_Ico_zpow positive (by norm_num : (1 : ℚ) < 2) with ⟨own, above, below⟩
  have more : first < own + 1 :=
    (zpow_lt_zpow_iff_right₀ (by norm_num : (1 : ℚ) < 2)).mp (low.trans_lt below)
  rw [nearestPositive_eq (by omega) above below]
  have bit : (0 : ℚ) < 2 ^ (own - 52) := zpow_pos (by norm_num) _
  have down := mul_le_mul_of_nonneg_right (le_roundEven (value / 2 ^ (own - 52))) bit.le
  have up := mul_le_mul_of_nonneg_right (roundEven_le (value / 2 ^ (own - 52))) bit.le
  rw [sub_mul, div_mul_cancel₀ value bit.ne'] at down
  rw [add_mul, div_mul_cancel₀ value bit.ne'] at up
  have size : (2 : ℚ) ^ (own - 52) = 2 ^ own / 2 ^ 52 := by
    rw [zpow_sub₀ (by norm_num)]
    norm_cast
  rw [size] at down up ⊢
  constructor <;> linarith

/-- What is rounded to an even number is at most half a step above it. -/
theorem roundEven_le_iff {value : ℚ} {bound : ℤ} (even : bound % 2 = 0) :
    roundEven value ≤ bound ↔ value ≤ bound + 1 / 2 := by
  have below := Int.floor_le value
  have above := Int.lt_floor_add_one value
  generalize whole : ⌊value⌋ = floor at below above
  have inside : floor < bound → value < bound := by
    intro less
    have cast : ((floor + 1 : ℤ) : ℚ) ≤ bound := by
      exact_mod_cast less
    push_cast at cast
    linarith
  have outside : bound < floor → (bound : ℚ) + 1 ≤ value := by
    intro more
    have cast : ((bound + 1 : ℤ) : ℚ) ≤ floor := by
      exact_mod_cast more
    push_cast at cast
    linarith
  rw [roundEven, whole]
  rcases lt_trichotomy floor bound with less | same | more
  · have holds : value ≤ bound + 1 / 2 := by
      linarith [inside less]
    simp only [holds, iff_true]
    split
    · omega
    split
    · omega
    split <;> omega
  · subst same
    split
    · next small =>
        simp only [le_refl, true_iff]
        linarith
    split
    · next large =>
        constructor
        · omega
        · intro
          linarith
    · next tie =>
        simp only [le_refl, true_iff]
        linarith
  · have fails : ¬ value ≤ bound + 1 / 2 := by
      linarith [outside more]
    simp only [fails, iff_false]
    split
    · omega
    split
    · omega
    split <;> omega

/-- A number is rounded to an even double or below it as long as it is not more than half a
step above it. -/
theorem nearestPositive_le_iff {value : ℚ} {first bound : ℤ} (normal : -1022 ≤ first)
    (even : bound % 2 = 0) (small : bound < 2 ^ 53) (low : (2 : ℚ) ^ first ≤ value) :
    nearestPositive value ≤ bound * 2 ^ (first - 52) ↔
      value ≤ (bound + 1 / 2) * 2 ^ (first - 52) := by
  have bit : (0 : ℚ) < 2 ^ (first - 52) := zpow_pos (by norm_num) _
  rcases lt_or_ge value (2 ^ (first + 1)) with high | high
  · rw [nearestPositive_eq normal low high, mul_le_mul_iff_left₀ bit, Int.cast_le,
      roundEven_le_iff even, div_le_iff₀ bit]
  · have far := (nearestPositive_close normal low).1
    have room : (bound : ℚ) + 2 ≤ 2 ^ 53 := by
      have whole : bound + 2 ≤ 2 ^ 53 := by omega
      exact_mod_cast whole
    have top : (2 : ℚ) ^ (first + 1) = 2 ^ 53 * 2 ^ (first - 52) := by
      rw [← zpow_natCast, ← zpow_add₀ (by norm_num)]
      congr 1
      omega
    have less := mul_le_mul_of_nonneg_right room bit.le
    rw [add_mul] at less ⊢
    constructor
    · intro
      linarith
    · intro
      linarith

/-- A positive number is rounded as it is, unless it is too large. -/
theorem nearest_positive {value : ℚ} (positive : 0 < value) :
    nearest value = if (2 : ℚ) ^ 1024 ≤ nearestPositive value then none
      else some (nearestPositive value) := by
  rw [nearest, if_neg positive.ne', abs_of_pos positive]
  simp only [if_neg (not_lt.mpr positive.le)]

/-- Numbers up to half of the range stay inside it. -/
theorem nearest_of_le {value : ℚ} (positive : 0 ≤ value) (small : value ≤ 2 ^ 1023) :
    ∃ double, nearest value = some double := by
  rcases positive.eq_or_lt with rfl | positive
  · exact ⟨0, if_pos rfl⟩
  · have near := nearestPositive_le positive
    have unit : (1 : ℚ) < 2 ^ 1023 := one_lt_pow₀ (by norm_num) (by norm_num)
    have double : (2 : ℚ) ^ 1024 = 2 ^ 1023 + 2 ^ 1023 := by
      rw [pow_succ, mul_two]
    have room : ¬ (2 : ℚ) ^ 1024 ≤ nearestPositive value := by
      rw [double, not_le]
      generalize (2 : ℚ) ^ 1023 = half at small unit ⊢
      linarith
    rw [nearest_positive positive, if_neg room]
    exact ⟨_, rfl⟩

/-- Numbers from twice the range on are outside. -/
theorem nearest_none {value : ℚ} (large : (2 : ℚ) ^ 1025 ≤ value) : nearest value = none := by
  have unit : (0 : ℚ) < 2 ^ 1025 := pow_pos (by norm_num) _
  have low : (2 : ℚ) ^ (1025 : ℤ) ≤ value := by exact_mod_cast large
  have near := (nearestPositive_close (by decide) low).1
  have part : value / 2 ^ 53 ≤ value / 2 :=
    div_le_div_of_nonneg_left (unit.trans_le large).le (by norm_num) (by norm_num)
  have double : (2 : ℚ) ^ 1025 = 2 ^ 1024 * 2 := pow_succ _ _
  have half : 2 ^ 1024 ≤ value / 2 := (le_div_iff₀ (by norm_num)).mpr (double ▸ large)
  rw [nearest_positive (unit.trans_le large), if_pos]
  exact half.trans (by linarith only [near, part])

/-! ## Whole numbers -/

theorem roundEven_intCast (whole : ℤ) : roundEven (whole : ℚ) = whole := by
  simp [roundEven]

/-- A whole multiple of the last bit is a double. -/
theorem nearestPositive_exact {value : ℚ} {whole : ℤ}
    (multiple : value = whole * (2 : ℚ) ^ lastBit value) : nearestPositive value = value := by
  have bit : (2 : ℚ) ^ lastBit value ≠ 0 := (zpow_pos (by norm_num) _).ne'
  have steps : value / (2 : ℚ) ^ lastBit value = whole := by
    rw [div_eq_iff bit]
    exact multiple
  rw [nearestPositive, steps, roundEven_intCast]
  exact multiple.symm

theorem nearestPositive_natCast {value : ℕ} (positive : 0 < value) (small : value ≤ 2 ^ 53) :
    nearestPositive (value : ℚ) = value := by
  have low : (2 : ℚ) ^ (value.log2 : ℤ) ≤ value := by
    rw [zpow_natCast]
    exact_mod_cast Nat.log2_self_le positive.ne'
  have high : (value : ℚ) < 2 ^ ((value.log2 : ℤ) + 1) := by
    have bound : value < 2 ^ (value.log2 + 1) := Nat.lt_log2_self
    have cast : (value : ℚ) < 2 ^ (value.log2 + 1) := by exact_mod_cast bound
    exact_mod_cast cast
  have last := lastBit_eq low high
  rw [max_eq_left (by omega)] at last
  rcases Nat.lt_or_ge value.log2 53 with few | many
  · have multiple : (value : ℚ) = ((value * 2 ^ (52 - value.log2) : ℤ) : ℚ) *
        2 ^ lastBit (value : ℚ) := by
      rw [last]
      push_cast
      rw [mul_assoc, ← zpow_natCast, ← zpow_add₀ (by norm_num)]
      have none_ : ((52 - value.log2 : ℕ) : ℤ) + ((value.log2 : ℤ) - 52) = 0 := by omega
      rw [none_, zpow_zero, mul_one]
    exact nearestPositive_exact multiple
  · have whole : value = 2 ^ 53 := by
      apply le_antisymm small
      exact (Nat.pow_le_pow_right (by norm_num) many).trans (Nat.log2_self_le positive.ne')
    subst whole
    have bits : (2 ^ 53 : ℕ).log2 = 53 := Nat.log2_two_pow
    have multiple : ((2 ^ 53 : ℕ) : ℚ) = ((2 ^ 52 : ℤ) : ℚ) * 2 ^ lastBit ((2 ^ 53 : ℕ) : ℚ) := by
      rw [last, bits]
      norm_num
    exact nearestPositive_exact multiple

theorem nearest_intCast {value : ℤ} (small : |value| ≤ 2 ^ 53) :
    nearest (value : ℚ) = some (value : ℚ) := by
  by_cases zero : value = 0
  · simp [nearest, zero]
  · have few : value.natAbs ≤ 2 ^ 53 := by
      rw [abs_le] at small
      omega
    have size : |(value : ℚ)| = (value.natAbs : ℚ) := by
      rw [Nat.cast_natAbs, Int.cast_abs]
    have same := nearestPositive_natCast (Int.natAbs_pos.mpr zero) few
    have room : ¬ (2 : ℚ) ^ 1024 ≤ (value.natAbs : ℚ) := by
      have cast : (value.natAbs : ℚ) ≤ 2 ^ 53 := by exact_mod_cast few
      have bound : (2 : ℚ) ^ 53 < 2 ^ 1024 :=
        pow_lt_pow_right₀ (by norm_num) (by norm_num : 53 < 1024)
      exact not_le.mpr (cast.trans_lt bound)
    have nonzero : (value : ℚ) ≠ 0 := by exact_mod_cast zero
    rw [nearest, if_neg nonzero, size, same]
    simp only [if_neg room]
    rw [← size]
    split
    · next negative => rw [abs_of_neg negative, neg_neg]
    · next positive => rw [abs_of_nonneg (not_lt.mp positive)]

end Homelab.Double
