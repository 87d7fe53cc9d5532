import Mathlib.Data.Int.Log
import Mathlib.Data.Rat.Floor
import Mathlib.Tactic.Linarith
import Mathlib.Tactic.Positivity

/-!
# Decimal numbers of limited precision

A rounding to `n` significant digits leaves a number that has no more digits as it is, and
returns such a number always.

Proved here:

* `Rounding.eq_iff`: what a rounding does not change;
* `roundTo_rounding`: rounding to the nearest number, halves away from zero, is such a rounding.
-/

namespace SignificantDigits

/-- `q` has at most `n` significant digits. -/
def Fits (n : ℕ) (q : ℚ) : Prop := ∃ m e : ℤ, |m| < 10 ^ n ∧ q = m * 10 ^ e

structure Rounding (n : ℕ) (round : ℚ → ℚ) : Prop where
  fits : ∀ q, Fits n (round q)
  exact : ∀ q, Fits n q → round q = q

theorem Rounding.eq_iff {n : ℕ} {round : ℚ → ℚ} (h : Rounding n round) (q : ℚ) :
    round q = q ↔ Fits n q :=
  ⟨fun heq => heq ▸ h.fits q, h.exact q⟩

/-- Moving the decimal point leaves the digits as they are. -/
theorem Fits.shift {n : ℕ} {q : ℚ} (h : Fits n q) (k : ℤ) : Fits n (q * 10 ^ k) := by
  obtain ⟨m, e, hm, rfl⟩ := h
  exact ⟨m, e + k, hm, by rw [zpow_add₀ (by norm_num), mul_assoc]⟩

theorem fits_int {n : ℕ} {m : ℤ} (hm : |m| < 10 ^ n) : Fits n m :=
  ⟨m, 0, hm, by simp⟩

/-- The nearest integer, halves away from zero. -/
def halfUp (q : ℚ) : ℤ := if 0 ≤ q then ⌊q + 1 / 2⌋ else -⌊-q + 1 / 2⌋

/-- The nearest number of `n` significant digits, halves away from zero. -/
def roundTo (n : ℕ) (q : ℚ) : ℚ :=
  let e := Int.log 10 |q| - (n - 1)
  if q = 0 then 0 else halfUp (q / 10 ^ e) * 10 ^ e

theorem floor_half (m : ℤ) : ⌊(m : ℚ) + 1 / 2⌋ = m := by
  rw [Int.floor_eq_iff]
  constructor
  · linarith
  · linarith

theorem halfUp_int (m : ℤ) : halfUp m = m := by
  rw [halfUp]
  split
  · exact floor_half m
  · rw [← Int.cast_neg, floor_half, neg_neg]

theorem abs_halfUp_le {q : ℚ} {b : ℤ} (h : |q| < b) : |halfUp q| ≤ b := by
  have hfloor : ∀ x : ℚ, 0 ≤ x → x < b → |⌊x + 1 / 2⌋| ≤ b := by
    intro x hx hb
    have hnonneg : 0 ≤ ⌊x + 1 / 2⌋ := Int.floor_nonneg.mpr (by linarith)
    rw [abs_of_nonneg hnonneg]
    have hlt : ⌊x + 1 / 2⌋ < b + 1 := by
      rw [Int.floor_lt]
      push_cast
      linarith
    omega
  rw [halfUp]
  split
  · next hq => exact hfloor q hq (abs_of_nonneg hq ▸ h)
  · next hq =>
    rw [abs_neg]
    exact hfloor (-q) (by linarith) (abs_of_neg (not_le.mp hq) ▸ h)

/-- The exponent of the last digit that is kept. -/
theorem scaled_bounds {n : ℕ} {q : ℚ} (hq : q ≠ 0) :
    (10 : ℚ) ^ ((n : ℤ) - 1) ≤ |q / 10 ^ (Int.log 10 |q| - (n - 1))| ∧
      |q / 10 ^ (Int.log 10 |q| - (n - 1))| < 10 ^ n := by
  have hpos : 0 < |q| := abs_pos.mpr hq
  have hten : (0 : ℚ) < 10 ^ (Int.log 10 |q| - (n - 1)) := zpow_pos (by norm_num) _
  have hfirst : (n : ℤ) - 1 + (Int.log 10 |q| - (n - 1)) = Int.log 10 |q| := by omega
  have hnext : (n : ℤ) + (Int.log 10 |q| - (n - 1)) = Int.log 10 |q| + 1 := by omega
  have hlow : (10 : ℚ) ^ Int.log 10 |q| ≤ |q| := by
    simpa using Int.zpow_log_le_self (b := 10) (by norm_num) hpos
  have hhigh : |q| < (10 : ℚ) ^ (Int.log 10 |q| + 1) := by
    simpa using Int.lt_zpow_succ_log_self (b := 10) (by norm_num) |q|
  rw [abs_div, abs_of_pos hten]
  constructor
  · rwa [le_div_iff₀ hten, ← zpow_add₀ (by norm_num), hfirst]
  · rwa [div_lt_iff₀ hten, ← zpow_natCast, ← zpow_add₀ (by norm_num), hnext]

theorem fits_roundTo {n : ℕ} (hn : 1 ≤ n) (q : ℚ) : Fits n (roundTo n q) := by
  have hone : (1 : ℤ) < 10 ^ n := one_lt_pow₀ (by norm_num) (by omega)
  rw [roundTo]
  split
  · exact ⟨0, 0, by rw [abs_zero]; positivity, by simp⟩
  · next hq =>
    have hbound : |halfUp (q / 10 ^ (Int.log 10 |q| - (n - 1)))| ≤ (10 : ℤ) ^ n :=
      abs_halfUp_le (by push_cast; exact (scaled_bounds hq).2)
    generalize halfUp (q / 10 ^ (Int.log 10 |q| - (n - 1))) = m at hbound ⊢
    generalize Int.log 10 |q| - (n - 1) = k
    rcases hbound.lt_or_eq with hlt | heq
    · exact ⟨m, k, hlt, rfl⟩
    · -- The digits are all nines and one more: a power of ten.
      have hm : (m : ℚ) * 10 ^ k = m.sign * 10 ^ ((n : ℤ) + k) := by
        have hsign : (m : ℚ) = m.sign * 10 ^ n := by
          have hcast := congrArg (fun z : ℤ => (z : ℚ)) (Int.sign_mul_abs m)
          rw [heq] at hcast
          push_cast at hcast
          exact hcast.symm
        rw [zpow_add₀ (by norm_num), zpow_natCast, ← mul_assoc, ← hsign]
      refine ⟨m.sign, n + k, lt_of_le_of_lt ?_ hone, hm⟩
      rcases Int.sign_trichotomy m with h | h | h
      all_goals rw [h]; decide

theorem roundTo_exact {n : ℕ} {q : ℚ} (h : Fits n q) : roundTo n q = q := by
  by_cases hq : q = 0
  · rw [roundTo, if_pos hq, hq]
  obtain ⟨m, e, hm, rfl⟩ := h
  obtain ⟨hlow, -⟩ := scaled_bounds (n := n) hq
  rw [roundTo, if_neg hq]
  generalize Int.log 10 |(m : ℚ) * 10 ^ e| - (n - 1) = k at hlow ⊢
  have hten : (0 : ℚ) < 10 ^ k := zpow_pos (by norm_num) _
  have hscaled : (m : ℚ) * 10 ^ e / 10 ^ k = m * 10 ^ (e - k) := by
    rw [mul_div_assoc, ← zpow_sub₀ (by norm_num)]
  have hke : k ≤ e := by
    by_contra hlt
    have hpos : (0 : ℚ) < 10 ^ (e - k) := zpow_pos (by norm_num) _
    rw [hscaled, abs_mul, abs_of_pos hpos] at hlow
    have hdown : (10 : ℚ) ^ (e - k) ≤ 10 ^ (-1 : ℤ) :=
      zpow_le_zpow_right₀ (by norm_num) (by omega)
    have hm' : |(m : ℚ)| < 10 ^ n := by exact_mod_cast hm
    have hupper : |(m : ℚ)| * 10 ^ (e - k) < 10 ^ n * 10 ^ (-1 : ℤ) :=
      mul_lt_mul_of_lt_of_le_of_nonneg_of_pos hm' hdown (abs_nonneg _) (by positivity)
    rw [← zpow_natCast, ← zpow_add₀ (by norm_num)] at hupper
    exact absurd hlow (not_le.mpr hupper)
  obtain ⟨j, hj⟩ : ∃ j : ℕ, e - k = j := ⟨(e - k).toNat, by omega⟩
  have hint : (m : ℚ) * 10 ^ e / 10 ^ k = ((m * 10 ^ j : ℤ) : ℚ) := by
    rw [hscaled, hj, zpow_natCast]
    push_cast
    rfl
  rw [hint, halfUp_int, ← hint, div_mul_cancel₀ _ hten.ne']

theorem roundTo_rounding {n : ℕ} (hn : 1 ≤ n) : Rounding n (roundTo n) :=
  ⟨fits_roundTo hn, fun _ => roundTo_exact⟩

end SignificantDigits
