import Mathlib.Data.Int.Log
import Mathlib.Data.Rat.Floor
import Mathlib.Algebra.Order.Ring.Rat
import Mathlib.Tactic.Linarith

/-!
# Rounding to a double

A number is rounded to the nearest multiple of its unit in the last place, half to even. The
unit grows with the number by powers of two and each power is a multiple of the units below
it, so rounding keeps the order, and what has been rounded stays as it is.
-/

namespace Defender.Library.Binary64

/-- Rounding half to even. -/
def roundHalfEven (value : ℚ) : Int :=
  let low := value.floor
  let rest := value - low
  if rest < 1 / 2 then low
  else if rest = 1 / 2 ∧ low % 2 = 0 then low
  else low + 1

section Integers

theorem round_half_even_bounds (value : ℚ) :
    value.floor ≤ roundHalfEven value ∧ roundHalfEven value ≤ value.floor + 1 := by
  unfold roundHalfEven
  dsimp only
  split
  · omega
  · split <;> omega

theorem round_half_even_mono {low high : ℚ} (less : low ≤ high) :
    roundHalfEven low ≤ roundHalfEven high := by
  have low_bounds := round_half_even_bounds low
  have high_bounds := round_half_even_bounds high
  have floors : low.floor ≤ high.floor := Rat.floor_monotone less
  rcases floors.lt_or_eq with apart | same
  · omega
  · have rest : low - low.floor ≤ high - low.floor := by linarith
    by_cases down : roundHalfEven high = high.floor
    · have near : high - (low.floor : ℚ) < 1 / 2 ∨
          high - (low.floor : ℚ) = 1 / 2 ∧ low.floor % 2 = 0 := by
        by_contra far
        rw [not_or] at far
        unfold roundHalfEven at down
        rw [← same] at down
        dsimp only at down
        rw [if_neg far.1, if_neg far.2] at down
        omega
      have low_down : roundHalfEven low = low.floor := by
        unfold roundHalfEven
        dsimp only
        split
        · rfl
        · rename_i late
          rcases near with early | ⟨half, even⟩
          · exact absurd (lt_of_le_of_lt rest early) late
          · have tied : low - (low.floor : ℚ) = 1 / 2 := by linarith
            rw [if_pos ⟨tied, even⟩]
      omega
    · omega

theorem round_half_even_int (number : Int) : roundHalfEven number = number := by
  unfold roundHalfEven
  have floor : (number : ℚ).floor = number := Rat.floor_intCast number
  simp [floor]

end Integers

/-- The exponent of a positive number's unit in the last place. -/
def unitExponent (value : ℚ) : Int := max (Int.log 2 value - 52) (-1074)

def unitOf (value : ℚ) : ℚ := 2 ^ unitExponent value

def roundPositive (value : ℚ) : ℚ := roundHalfEven (value / unitOf value) * unitOf value

/-- The double nearest a number, where none is too large to have one. -/
def nearest (value : ℚ) : ℚ :=
  if value < 0 then -roundPositive (-value) else roundPositive value

section Positive

variable {value larger : ℚ}

theorem unit_pos (value : ℚ) : 0 < unitOf value := zpow_pos (by norm_num) _

theorem round_nonneg (nonneg : 0 ≤ value) : 0 ≤ roundPositive value := by
  have least := round_half_even_mono (div_nonneg nonneg (unit_pos value).le)
  rw [show roundHalfEven 0 = 0 from round_half_even_int 0] at least
  exact mul_nonneg (Int.cast_nonneg least) (unit_pos value).le

theorem round_le_multiple {bound : ℚ} (number : Int) (is : bound = number * unitOf value)
    (below : value ≤ bound) : roundPositive value ≤ bound := by
  have most : value / unitOf value ≤ number := by
    rw [div_le_iff₀ (unit_pos value), ← is]
    exact below
  have rounded := round_half_even_mono most
  rw [round_half_even_int] at rounded
  rw [is]
  exact mul_le_mul_of_nonneg_right (Int.cast_le.mpr rounded) (unit_pos value).le

theorem multiple_le_round {bound : ℚ} (number : Int) (is : bound = number * unitOf value)
    (above : bound ≤ value) : bound ≤ roundPositive value := by
  have least : (number : ℚ) ≤ value / unitOf value := by
    rw [le_div_iff₀ (unit_pos value), ← is]
    exact above
  have rounded := round_half_even_mono least
  rw [round_half_even_int] at rounded
  rw [is]
  exact mul_le_mul_of_nonneg_right (Int.cast_le.mpr rounded) (unit_pos value).le

theorem power_multiple {power : Int} (fits : unitExponent value ≤ power) :
    ∃ number : Int, (2 : ℚ) ^ power = number * unitOf value := by
  obtain ⟨steps, same⟩ := Int.eq_ofNat_of_zero_le (sub_nonneg.mpr fits)
  refine ⟨2 ^ steps, ?_⟩
  have split : power = (steps : Int) + unitExponent value := by omega
  unfold unitOf
  rw [split, zpow_add₀ (by norm_num), zpow_natCast]
  push_cast
  rfl

/-- A power of two between two numbers stands between what they round to. -/
theorem round_positive_mono (positive : 0 < value) (less : value ≤ larger) :
    roundPositive value ≤ roundPositive larger := by
  have larger_positive := positive.trans_le less
  have logs : Int.log 2 value ≤ Int.log 2 larger := Int.log_mono_right positive less
  have units : unitExponent value ≤ unitExponent larger := max_le_max (by omega) le_rfl
  rcases units.lt_or_eq with coarser | same
  · have normal : unitExponent larger = Int.log 2 larger - 52 := by
      unfold unitExponent at coarser ⊢
      omega
    have apart : Int.log 2 value < Int.log 2 larger := by
      unfold unitExponent at coarser normal
      omega
    obtain ⟨number, is⟩ := @power_multiple value (Int.log 2 larger) (by omega)
    obtain ⟨other, other_is⟩ := @power_multiple larger (Int.log 2 larger) (by omega)
    have below : value ≤ 2 ^ Int.log 2 larger :=
      ((Int.lt_zpow_iff_log_lt (by norm_num) positive).mpr apart).le
    have above : (2 : ℚ) ^ Int.log 2 larger ≤ larger :=
      Int.zpow_log_le_self (by norm_num) larger_positive
    exact (round_le_multiple number is below).trans (multiple_le_round other other_is above)
  · have unit : unitOf larger = unitOf value := by
      unfold unitOf
      rw [same]
    unfold roundPositive
    rw [unit]
    apply mul_le_mul_of_nonneg_right _ (unit_pos value).le
    apply Int.cast_le.mpr
    exact round_half_even_mono (div_le_div_of_nonneg_right less (unit_pos value).le)

theorem round_exact {number : Int} (is : value = number * unitOf value) :
    roundPositive value = value :=
  le_antisymm (round_le_multiple number is le_rfl) (multiple_le_round number is le_rfl)

/-- A whole number of units of at most 53 digits is a double. -/
theorem round_short {number : Nat} {power : Int} (short : number ≤ 2 ^ 53)
    (least : -1074 ≤ power) : roundPositive (number * 2 ^ power) = number * 2 ^ power := by
  have whole : ∀ number : Nat, ∀ power : Int, number < 2 ^ 53 → -1074 ≤ power →
      roundPositive (number * 2 ^ power) = number * 2 ^ power := by
    intro number power less least
    rcases Nat.eq_zero_or_pos number with none | positive
    · subst none
      rw [Nat.cast_zero, zero_mul]
      exact round_exact (by rw [zero_eq_mul]; exact .inl (Int.cast_zero))
    · have scaled : (0 : ℚ) < number * 2 ^ power :=
        mul_pos (Nat.cast_pos.mpr positive) (zpow_pos (by norm_num) _)
      have bounded : ((number : ℚ) * 2 ^ power) < 2 ^ (power + 53) := by
        rw [add_comm, zpow_add₀ (by norm_num)]
        apply mul_lt_mul_of_pos_right _ (zpow_pos (by norm_num) _)
        exact_mod_cast less
      have log : Int.log 2 ((number : ℚ) * 2 ^ power) < power + 53 :=
        (Int.lt_zpow_iff_log_lt (by norm_num) scaled).mp bounded
      have fits : unitExponent ((number : ℚ) * 2 ^ power) ≤ power := max_le (by omega) least
      obtain ⟨times, is⟩ := power_multiple fits
      apply @round_exact _ (number * times)
      rw [Int.cast_mul, mul_assoc, ← is, Int.cast_natCast]
  rcases short.lt_or_eq with less | full
  · exact whole number power less least
  · have same : (number : ℚ) * 2 ^ power = (2 ^ 52 : Nat) * 2 ^ (power + 1) := by
      rw [full, zpow_add₀ (by norm_num), zpow_one]
      push_cast
      ring
    rw [same]
    exact whole _ _ (by norm_num) (by omega)

theorem round_is_short (nonneg : 0 ≤ value) :
    ∃ number : Nat, number ≤ 2 ^ 53 ∧ roundPositive value = number * unitOf value := by
  have least := round_half_even_mono (div_nonneg nonneg (unit_pos value).le)
  rw [show roundHalfEven 0 = 0 from round_half_even_int 0] at least
  refine ⟨(roundHalfEven (value / unitOf value)).toNat, ?_, ?_⟩
  · have most : value / unitOf value ≤ ((2 ^ 53 : Int) : ℚ) := by
      rw [div_le_iff₀ (unit_pos value)]
      have bounded := (Int.lt_zpow_succ_log_self (b := 2) (by norm_num) value).le
      have fits : Int.log 2 value + 1 ≤ 53 + unitExponent value := by
        unfold unitExponent
        omega
      have split : (2 : ℚ) ^ (53 + unitExponent value) = 2 ^ (53 : Int) * unitOf value :=
        zpow_add₀ (by norm_num) _ _
      calc value ≤ 2 ^ (Int.log 2 value + 1) := bounded
        _ ≤ 2 ^ (53 + unitExponent value) := zpow_le_zpow_right₀ (by norm_num) fits
        _ = ((2 ^ 53 : Int) : ℚ) * unitOf value := by
          rw [split]
          norm_num
    have rounded := round_half_even_mono most
    rw [round_half_even_int] at rounded
    omega
  · unfold roundPositive
    have same := Int.toNat_of_nonneg least
    rw [← Int.cast_natCast, same]

theorem round_idempotent (nonneg : 0 ≤ value) :
    roundPositive (roundPositive value) = roundPositive value := by
  obtain ⟨number, short, is⟩ := round_is_short nonneg
  rw [is]
  exact round_short short (le_max_right _ _)

end Positive

section Nearest

variable {value larger : ℚ}

theorem nearest_nonneg (nonneg : 0 ≤ value) : nearest value = roundPositive value :=
  if_neg (not_lt.mpr nonneg)

theorem nearest_zero : nearest 0 = 0 := by
  rw [nearest_nonneg le_rfl]
  exact @round_exact 0 0 (by rw [Int.cast_zero, zero_mul])

theorem nearest_ge_zero (nonneg : 0 ≤ value) : 0 ≤ nearest value := by
  rw [nearest_nonneg nonneg]
  exact round_nonneg nonneg

theorem nearest_mono (less : value ≤ larger) : nearest value ≤ nearest larger := by
  by_cases negative : value < 0
  · have low : nearest value = -roundPositive (-value) := if_pos negative
    by_cases both : larger < 0
    · have high : nearest larger = -roundPositive (-larger) := if_pos both
      rw [low, high]
      exact neg_le_neg (round_positive_mono (by linarith) (neg_le_neg less))
    · have least := @round_nonneg (-value) (by linarith)
      have high := nearest_ge_zero (not_lt.mp both)
      rw [low]
      linarith
  · rcases (not_lt.mp negative).lt_or_eq with positive | zero
    · rw [nearest_nonneg positive.le, nearest_nonneg (positive.le.trans less)]
      exact round_positive_mono positive less
    · rw [← zero, nearest_zero]
      exact nearest_ge_zero (zero ▸ less)

theorem nearest_idempotent (value : ℚ) : nearest (nearest value) = nearest value := by
  by_cases negative : value < 0
  · have low : nearest value = -roundPositive (-value) := if_pos negative
    have nonneg := @round_nonneg (-value) (by linarith)
    rw [low]
    rcases nonneg.lt_or_eq with positive | zero
    · rw [nearest, if_pos (by linarith), neg_neg, round_idempotent (by linarith)]
    · rw [← zero, neg_zero, nearest_zero]
  · rw [nearest_nonneg (not_lt.mp negative), nearest_nonneg (round_nonneg (not_lt.mp negative)),
      round_idempotent (not_lt.mp negative)]

end Nearest

end Defender.Library.Binary64
