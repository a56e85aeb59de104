import Mathlib.Data.Rat.Floor
import Mathlib.Algebra.Order.Field.Power
import Mathlib.Tactic.Linarith
import Mathlib.Tactic.Positivity
import Mathlib.Tactic.Ring
import Mathlib.Tactic.FieldSimp
import LiveDiagram.Decimal.Shortest

/-!
# Rounding to 53 bits

A positive rational is rounded by dividing it by the power of two for which 53 bits stand before the
point, and taking the nearest natural number.  Of two equally near it is the even one.  How large or
small a double can be plays no part in that: the exponent is any integer.

## Main results

* `Rounds.unique`: what a rational rounds to is determined.
* `Rounds.refl`: 53 bits are kept.
* `Rounds.le_of_le`: rounding does not go beyond a number of 53 bits.
* `Rounds.lt_top`: what is far enough below the end of the doubles stays below it.
-/

namespace LiveDiagram.Decimal

/-- The natural number nearest to a rational; of two equally near the even one. -/
def Nearest (q : ℚ) (n : ℕ) : Prop :=
  |q - n| < 1 / 2 ∨ |q - n| = 1 / 2 ∧ n % 2 = 0

/-- `2 ^ e` is the unit in the last of 53 bits. -/
def InBinade (q : ℚ) (e : ℤ) : Prop :=
  2 ^ (e + 52) ≤ q ∧ q < 2 ^ (e + 53)

/-- The nearest number of 53 bits. -/
def Rounds (q r : ℚ) : Prop :=
  ∃ (e : ℤ) (n : ℕ), InBinade q e ∧ Nearest (q / 2 ^ e) n ∧ r = n * 2 ^ e

/-! ## Powers of two -/

theorem pow_two_pos (e : ℤ) : (0 : ℚ) < 2 ^ e :=
  zpow_pos (by norm_num) e

theorem pow_two_add (e f : ℤ) : (2 : ℚ) ^ (e + f) = 2 ^ e * 2 ^ f :=
  zpow_add₀ (by norm_num) e f

theorem pow_two_lt_iff {e f : ℤ} : (2 : ℚ) ^ e < 2 ^ f ↔ e < f :=
  zpow_lt_zpow_iff_right₀ (by norm_num)

theorem pow_two_le_iff {e f : ℤ} : (2 : ℚ) ^ e ≤ 2 ^ f ↔ e ≤ f :=
  zpow_le_zpow_iff_right₀ (by norm_num)

/-! ## Nearest -/

theorem Nearest.abs_sub_le {q : ℚ} {n : ℕ} (h : Nearest q n) : |q - n| ≤ 1 / 2 := by
  rcases h with h | h
  · exact h.le
  · exact h.1.le

theorem Nearest.unique {q : ℚ} {m n : ℕ} (hm : Nearest q m) (hn : Nearest q n) : m = n := by
  have hm' := abs_le.mp hm.abs_sub_le
  have hn' := abs_le.mp hn.abs_sub_le
  -- Two that are both nearest are neighbours halfway from `q`, and then both would be even.
  by_contra hne
  wlog hlt : m < n generalizing m n
  · exact this hn hm hn' hm' (Ne.symm hne) (by omega)
  have hcast : (m : ℚ) + 1 ≤ n := by exact_mod_cast hlt
  have hhalf : q - m = 1 / 2 := by linarith
  have hhalf' : q - n = -(1 / 2) := by linarith
  have hnext : n = m + 1 := by
    have : (n : ℚ) = m + 1 := by linarith
    exact_mod_cast this
  have hmeven : m % 2 = 0 := by
    rcases hm with h | h
    · rw [hhalf] at h
      norm_num at h
    · exact h.2
  have hneven : n % 2 = 0 := by
    rcases hn with h | h
    · rw [hhalf'] at h
      norm_num at h
    · exact h.2
  omega

theorem nearest_natCast (n : ℕ) : Nearest n n :=
  Or.inl (by norm_num)

/-- Nothing between a number and the one nearest to it is a natural number. -/
theorem Nearest.le_of_le {q : ℚ} {m n : ℕ} (h : Nearest q n) (hm : q ≤ m) : n ≤ m := by
  by_contra hlt
  have hcast : (m : ℚ) + 1 ≤ n := by exact_mod_cast not_le.mp hlt
  have habs := abs_le.mp h.abs_sub_le
  linarith

theorem Nearest.le_of_ge {q : ℚ} {m n : ℕ} (h : Nearest q n) (hm : (m : ℚ) ≤ q) : m ≤ n := by
  by_contra hlt
  have hcast : (n : ℚ) + 1 ≤ m := by exact_mod_cast not_le.mp hlt
  have habs := abs_le.mp h.abs_sub_le
  linarith

/-! ## Binades -/

theorem InBinade.unique {q : ℚ} {e f : ℤ} (he : InBinade q e) (hf : InBinade q f) : e = f := by
  have hlt := pow_two_lt_iff.mp (he.1.trans_lt hf.2)
  have hgt := pow_two_lt_iff.mp (hf.1.trans_lt he.2)
  omega

theorem InBinade.div_pow {q : ℚ} {e : ℤ} (h : InBinade q e) :
    2 ^ 52 ≤ q / 2 ^ e ∧ q / 2 ^ e < 2 ^ 53 := by
  obtain ⟨hlow, hhigh⟩ := h
  rw [pow_two_add] at hlow hhigh
  rw [le_div_iff₀ (pow_two_pos e), div_lt_iff₀ (pow_two_pos e)]
  exact ⟨by linarith, by linarith⟩

theorem inBinade_mul_pow {q : ℚ} {e : ℤ} (hlow : 2 ^ 52 ≤ q) (hhigh : q < 2 ^ 53) :
    InBinade (q * 2 ^ e) e := by
  have hpos := pow_two_pos e
  constructor
  · rw [pow_two_add, mul_comm]
    exact mul_le_mul_of_nonneg_right (by exact_mod_cast hlow) hpos.le
  · rw [pow_two_add, mul_comm _ ((2 : ℚ) ^ (53 : ℤ))]
    exact mul_lt_mul_of_pos_right (by exact_mod_cast hhigh) hpos

/-! ## Rounding -/

theorem Rounds.unique {q r r' : ℚ} (h : Rounds q r) (h' : Rounds q r') : r = r' := by
  obtain ⟨e, n, he, hn, rfl⟩ := h
  obtain ⟨f, m, hf, hm, rfl⟩ := h'
  obtain rfl := he.unique hf
  obtain rfl := hn.unique hm
  rfl

theorem Rounds.intro {q : ℚ} {e : ℤ} {n : ℕ} (hlow : 2 ^ 52 ≤ q) (hhigh : q < 2 ^ 53)
    (hn : Nearest q n) : Rounds (q * 2 ^ e) (n * 2 ^ e) := by
  refine ⟨e, n, inBinade_mul_pow hlow hhigh, ?_, rfl⟩
  rwa [mul_div_assoc, div_self (pow_two_pos e).ne', mul_one]

/-- A power of two that makes a number of at most 53 bits one of exactly 53. -/
theorem exists_shift {m : ℕ} (hpos : 0 < m) (hm : m < 2 ^ 53) :
    ∃ k : ℕ, 2 ^ 52 ≤ m * 2 ^ k ∧ m * 2 ^ k < 2 ^ 53 := by
  have hlog : m.log2 < 53 := (Nat.log2_lt hpos.ne').mpr hm
  have hlow : 2 ^ m.log2 ≤ m := Nat.log2_self_le hpos.ne'
  have hhigh : m < 2 ^ (m.log2 + 1) := Nat.lt_log2_self
  have hsplit : 2 ^ m.log2 * 2 ^ (52 - m.log2) = 2 ^ 52 := by
    rw [← Nat.pow_add]
    congr 1
    omega
  have hstep : 2 ^ (m.log2 + 1) * 2 ^ (52 - m.log2) = 2 ^ 53 := by
    rw [← Nat.pow_add]
    congr 1
    omega
  refine ⟨52 - m.log2, ?_, ?_⟩
  · rw [← hsplit]
    exact Nat.mul_le_mul_right _ hlow
  · rw [← hstep]
    exact Nat.mul_lt_mul_of_pos_right hhigh (Nat.two_pow_pos _)

theorem mul_pow_shift (m k : ℕ) (e : ℤ) :
    ((m * 2 ^ k : ℕ) : ℚ) * 2 ^ (e - k) = m * 2 ^ e := by
  rw [zpow_sub₀ (by norm_num), zpow_natCast, Nat.cast_mul, Nat.cast_pow]
  field_simp
  norm_num

/-- What has 53 bits is kept. -/
theorem Rounds.refl {m : ℕ} (hpos : 0 < m) (hm : m < 2 ^ 53) (e : ℤ) :
    Rounds (m * 2 ^ e) (m * 2 ^ e) := by
  obtain ⟨k, hlow, hhigh⟩ := exists_shift hpos hm
  have h := Rounds.intro (e := e - k) (by exact_mod_cast hlow) (by exact_mod_cast hhigh)
    (nearest_natCast (m * 2 ^ k))
  rwa [mul_pow_shift] at h

/-- Rounding does not go beyond a number of 53 bits. -/
theorem Rounds.le_of_le {q r : ℚ} (h : Rounds q r) {m : ℕ} (hm : m < 2 ^ 53) {e : ℤ}
    (hle : q ≤ m * 2 ^ e) : r ≤ m * 2 ^ e := by
  obtain ⟨f, n, hbinade, hnearest, rfl⟩ := h
  have hfe : f ≤ e := by
    -- Otherwise `m * 2 ^ e` would be below the binade of `q`.
    by_contra hlt
    have hupper : (m : ℚ) * 2 ^ e < 2 ^ (e + 53) := by
      rw [pow_two_add, mul_comm]
      exact mul_lt_mul_of_pos_left (by exact_mod_cast hm) (pow_two_pos e)
    have := pow_two_lt_iff.mp ((hbinade.1.trans hle).trans_lt hupper)
    omega
  obtain ⟨k, rfl⟩ := Int.le.dest hfe
  have hvalue : (m : ℚ) * 2 ^ (f + (k : ℤ)) = ((m * 2 ^ k : ℕ) : ℚ) * 2 ^ f := by
    rw [pow_two_add, zpow_natCast, Nat.cast_mul, Nat.cast_pow]
    ring
  rw [hvalue] at hle ⊢
  have hn := hnearest.le_of_le ((div_le_iff₀ (pow_two_pos f)).mpr hle)
  exact mul_le_mul_of_nonneg_right (by exact_mod_cast hn) (pow_two_pos f).le

/-- Rounding stays within the binade or reaches its end. -/
theorem Rounds.bounds {q r : ℚ} (h : Rounds q r) :
    ∃ e : ℤ, InBinade q e ∧ 2 ^ (e + 52) ≤ r ∧ r ≤ 2 ^ (e + 53) := by
  obtain ⟨e, n, hbinade, hnearest, rfl⟩ := h
  obtain ⟨hlow, hhigh⟩ := hbinade.div_pow
  have hn : 2 ^ 52 ≤ n := hnearest.le_of_ge (by exact_mod_cast hlow)
  have hn' : n ≤ 2 ^ 53 := hnearest.le_of_le (by exact_mod_cast hhigh.le)
  have hpos := (pow_two_pos e).le
  refine ⟨e, hbinade, ?_, ?_⟩
  · rw [pow_two_add, mul_comm]
    exact mul_le_mul_of_nonneg_right (by exact_mod_cast hn) hpos
  · rw [pow_two_add, mul_comm ((2 : ℚ) ^ e)]
    exact mul_le_mul_of_nonneg_right (by exact_mod_cast hn') hpos

theorem Rounds.le_two_mul {q r : ℚ} (h : Rounds q r) : r ≤ 2 * q := by
  obtain ⟨e, hbinade, -, hhigh⟩ := h.bounds
  have hlow := hbinade.1
  rw [show e + 53 = 1 + (e + 52) by omega, pow_two_add 1, zpow_one] at hhigh
  linarith

/-- Rounding does not go below a power of two. -/
theorem Rounds.pow_le {q r : ℚ} (h : Rounds q r) {j : ℤ} (hq : 2 ^ j ≤ q) : 2 ^ j ≤ r := by
  obtain ⟨e, hbinade, hlow, -⟩ := h.bounds
  have he : j < e + 53 := pow_two_lt_iff.mp (hq.trans_lt hbinade.2)
  exact (pow_two_le_iff.mpr (by omega)).trans hlow

theorem Rounds.one_le {q r : ℚ} (h : Rounds q r) (hq : 1 ≤ q) : 1 ≤ r := by
  rw [← zpow_zero 2] at hq ⊢
  exact h.pow_le hq

/-! ## Where doubles end -/

/-- So many halves of the unit in the last bit of the largest double.  That double has `2 ^ 54 - 2` of
them, and from `2 ^ 54 - 1` on a rational is out of range. -/
@[irreducible]
def halves (n : ℕ) : ℕ :=
  n * 2 ^ 970

theorem cast_mul_pow (n k : ℕ) : ((n * 2 ^ k : ℕ) : ℚ) = n * 2 ^ (k : ℤ) := by
  rw [Nat.cast_mul, Nat.cast_pow, zpow_natCast, Nat.cast_ofNat]

theorem cast_halves (n : ℕ) : (halves n : ℚ) = n * 2 ^ (970 : ℤ) := by
  unfold halves
  exact cast_mul_pow n 970

/-- What is less than half a unit above the largest double does not round beyond it. -/
theorem Rounds.lt_top {q r : ℚ} (h : Rounds q r) (hq : q < halves (2 ^ 54 - 1)) :
    r < 2 ^ (1024 : ℤ) := by
  have hunits : ((2 ^ 54 - 1 : ℕ) : ℚ) = 2 ^ 54 - 1 := by norm_num
  rw [cast_halves, hunits] at hq
  obtain ⟨e, n, hbinade, hnearest, rfl⟩ := h
  have hpos := pow_two_pos e
  have htop : (2 : ℚ) ^ (1024 : ℤ) = 2 ^ 54 * 2 ^ (970 : ℤ) := by
    rw [show (1024 : ℤ) = (54 : ℕ) + 970 by norm_num, pow_two_add, zpow_natCast]
  have he : e + 52 < 1024 := by
    refine pow_two_lt_iff.mp (hbinade.1.trans_lt (hq.trans ?_))
    rw [htop]
    exact mul_lt_mul_of_pos_right (by norm_num) (pow_two_pos 970)
  rcases (show e ≤ 970 ∨ e = 971 by omega) with hlow | rfl
  · have hn : n ≤ 2 ^ 53 := hnearest.le_of_le (by exact_mod_cast hbinade.div_pow.2.le)
    calc (n : ℚ) * 2 ^ e ≤ 2 ^ 53 * 2 ^ e :=
          mul_le_mul_of_nonneg_right (by exact_mod_cast hn) hpos.le
      _ ≤ 2 ^ 53 * 2 ^ (970 : ℤ) := mul_le_mul_of_nonneg_left (pow_two_le_iff.mpr hlow) (by norm_num)
      _ < 2 ^ (1024 : ℤ) := by
          rw [htop]
          exact mul_lt_mul_of_pos_right (by norm_num) (pow_two_pos 970)
  · -- In the last binade the quotient is less than `2 ^ 53 - 1 / 2`, and not rounded up to `2 ^ 53`.
    have hunit : (2 : ℚ) ^ (971 : ℤ) = 2 * 2 ^ (970 : ℤ) := by
      rw [show (971 : ℤ) = 1 + 970 by norm_num, pow_two_add, zpow_one]
    have hquotient : q / 2 ^ (971 : ℤ) < 2 ^ 53 - 1 / 2 := by
      rw [div_lt_iff₀ hpos, hunit]
      linarith
    have hn : n < 2 ^ 53 := by
      have habs := abs_le.mp hnearest.abs_sub_le
      have hcast : (n : ℚ) < 2 ^ 53 := by linarith
      exact_mod_cast hcast
    rw [htop, hunit]
    have hn' : (n : ℚ) * 2 < 2 ^ 54 := by
      have hcast : (n : ℚ) < 2 ^ 53 := by exact_mod_cast hn
      linarith
    rw [← mul_assoc]
    exact mul_lt_mul_of_pos_right hn' (pow_two_pos 970)

end LiveDiagram.Decimal
