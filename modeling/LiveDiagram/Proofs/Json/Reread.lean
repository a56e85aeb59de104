import LiveDiagram.Proofs.Decimal.InRange
import LiveDiagram.Proofs.Json.Doubles

/-!
# What becomes of a double that is written and read

The reader scales a significand by a power of ten.  A significand below `2 ^ 53` is a double, and so
are the powers of ten up to `10 ^ 22`; with both, the only rounding is that of their product or
quotient, and since the decimal that was written lies in the interval of the double, it rounds to
that double.  Other numerals are rounded two or three times, and the result may be a neighbour.

It is never out of range, though.  Only products can be too large, and the largest decimals that are
written stay below the point where doubles end, even with the significand and the power of ten rounded
up.

## Main results

* `toFloat?_spelled`: the numeral of a finite double is in range.
* `reread_eq_self`: a short one reads back as the double.
* `isFinite_reread`: what any of them reads back as is finite.
-/

namespace LiveDiagram

namespace Decimal

open Float.Model Float.Model.UnpackedFloat

/-- The double that the reader makes of the numeral of a double. -/
def reread (x : Float) : Float :=
  ((spelled x).toFloat? (isNegative x)).getD x

/-! ## Signs -/

theorem signOf_eq (x : Float) : signOf x = if isNegative x then .negative else .positive := by
  have hbit : x.toBits.toNat / signUnit = 0 ∨ x.toBits.toNat / signUnit = 1 := by
    have hlt := x.toBits.toNat_lt
    simp only [signUnit]
    omega
  unfold isNegative signOf
  rcases hbit with hbit | hbit <;> rw [hbit] <;> rfl

/-- A double with all its bits is its magnitude with its sign. -/
theorem exists_magnitude {x : Float} (hx : x.isFinite = true)
    (hzero : x.toBits.toNat % signUnit ≠ 0) (hfull : (Binary.ofFloat x).exponent ≠ -1074) :
    ∃ a, Holds a (Binary.ofFloat x).value ∧ (if isNegative x then -a else a) = x := by
  have hscale := scale_of_isFinite hx
  have hcanonical := canonical_ofFloat hscale hzero
  have hlow : scaleUnit ≤ (Binary.ofFloat x).significand := hcanonical.full.resolve_right hfull
  have hpack : ∀ s, (Float.Model.pack (.finite s (Binary.ofFloat x).significand
      (Binary.ofFloat x).exponent hcanonical.pos)).unpack = .finite s _ _ hcanonical.pos := fun s =>
    unpack_pack hlow hcanonical.bounded hcanonical.low hcanonical.high
  have hunpack : x.toModel.unpack = .finite (if isNegative x then .negative else .positive)
      (Binary.ofFloat x).significand (Binary.ofFloat x).exponent hcanonical.pos :=
    unpack_eq_finite_iff.mpr ⟨hscale, hzero, (signOf_eq x).symm, rfl, rfl⟩
  refine ⟨.ofModel (Float.Model.pack (.finite .positive _ _ hcanonical.pos)),
    ⟨_, _, hcanonical.pos, hpack .positive, hlow, rfl⟩, ?_⟩
  refine eq_of_unpack_eq_finite ?_ hunpack
  cases isNegative x with
  | false => exact hpack .positive
  | true =>
      show (Float.Model.pack (Float.Model.unpack (Float.Model.pack _)).neg).unpack = _
      rw [hpack .positive]
      exact hpack .negative

/-! ## Decimals that are written -/

/-- What the numeral of a double spells is in its interval. -/
theorem covers_spelled {x : Float} (hx : x.isFinite = true)
    (hzero : x.toBits.toNat % signUnit ≠ 0) :
    (Binary.ofFloat x).Covers ((spelled x).significand * 10 ^ (spelled x).exponent) ∧
      0 < (spelled x).significand ∧ (spelled x).exponent ≤ 309 ∧
      (0 ≤ (spelled x).exponent → (spelled x).significand ≤ 10 ^ 18) := by
  obtain ⟨hpos, hdigits, hcovers, -, hhigh⟩ :=
    (canonical_ofFloat (scale_of_isFinite hx) hzero).shortest
  rw [spelled, if_neg hzero, Shortest.spelled]
  split
  · next hwhole =>
      refine ⟨?_, by positivity, show (-1 : ℤ) ≤ 309 by decide,
        fun h => absurd h (show ¬(0 : ℤ) ≤ -1 by decide)⟩
      have hvalue : (((Binary.ofFloat x).shortest.digits *
          10 ^ ((Binary.ofFloat x).shortest.exponent.toNat + 1) : ℕ) : ℚ) * 10 ^ (-1 : ℤ) =
          (Binary.ofFloat x).shortest.digits * 10 ^ (Binary.ofFloat x).shortest.exponent := by
        obtain ⟨k, hk⟩ : ∃ k : ℕ, (Binary.ofFloat x).shortest.exponent = k :=
          ⟨_, (Int.toNat_of_nonneg hwhole.1).symm⟩
        rw [hk, Int.toNat_natCast, zpow_natCast]
        push_cast
        rw [pow_succ]
        norm_num
        ring
      rw [hvalue]
      exact hcovers
  · exact ⟨hcovers, hpos, hhigh, fun _ => hdigits⟩

/-! ## One operation -/

theorem holds_toFloat {n : ℕ} (hpos : 0 < n) (hn : n < 2 ^ 53) : Holds n.toUInt64.toFloat n := by
  obtain ⟨r, hrounds, hholds⟩ := becomes_toFloat hpos (hn.trans (by decide))
  have hrefl := Rounds.refl hpos hn 0
  rw [zpow_zero, mul_one] at hrefl
  obtain rfl := hrounds.unique hrefl
  exact hholds (hrounds.lt_top (Nat.cast_lt.mpr (hn.trans (by decide +kernel))))

/-- With a short significand and a small exponent, the result is the exact one, rounded. -/
theorem scale_of_small {n : ℕ} {e : ℤ} (hpos : 0 < n) (hn : n < 2 ^ 53) (he : e.natAbs ≤ 22)
    {v : ℚ} (hv : Rounds (n * 10 ^ e) v) :
    ∃ y, Json.scale n.toUInt64.toFloat e = some y ∧ Holds y v := by
  have hx := holds_toFloat hpos hn
  have hpower := holds_power he
  have hone : (1 : ℚ) ≤ n := by exact_mod_cast hpos
  have hsmall : (10 : ℚ) ^ e.natAbs ≤ 10 ^ 22 := pow_le_pow_right₀ (by norm_num) he
  have hbound : v < 2 ^ (1024 : ℤ) := by
    have hn' : (n : ℚ) ≤ 2 ^ 53 := by exact_mod_cast hn.le
    have hpow : (10 : ℚ) ^ e ≤ 10 ^ (22 : ℤ) := zpow_le_zpow_right₀ (by norm_num) (by omega)
    have htop : 2 ^ 53 * 10 ^ 22 < halves (2 ^ 54 - 1) := by decide +kernel
    refine hv.lt_top ?_
    calc (n : ℚ) * 10 ^ e ≤ 2 ^ 53 * 10 ^ (22 : ℤ) := mul_le_mul hn' hpow (by positivity) (by norm_num)
      _ = (2 ^ 53 * 10 ^ 22 : ℕ) := by norm_num
      _ < halves (2 ^ 54 - 1) := Nat.cast_lt.mpr htop
  have hrange : (10 : ℚ) ^ e.natAbs < 2 ^ 900 :=
    calc (10 : ℚ) ^ e.natAbs ≤ 10 ^ 22 := hsmall
      _ < 2 ^ 100 := by norm_num
      _ ≤ 2 ^ 900 := pow_le_pow_right₀ (by norm_num) (by norm_num)
  rw [Json.scale, if_pos (he.trans (by decide))]
  by_cases hsign : 0 ≤ e
  · obtain ⟨r, hrounds, hholds⟩ := becomes_mul hx hpower hone (one_le_pow₀ (by norm_num))
    have hexact : (n : ℚ) * 10 ^ e.natAbs = n * 10 ^ e := by
      rw [← zpow_natCast, Int.natCast_natAbs, abs_of_nonneg hsign]
    rw [hexact] at hrounds
    obtain rfl := hrounds.unique hv
    refine ⟨_, ?_, hholds hbound⟩
    simp only [if_pos hsign, (hholds hbound).isInf, Bool.false_eq_true, if_false]
  · obtain ⟨r, hrounds, hholds⟩ := becomes_div hx hpower hone hrange
    have hexact : (n : ℚ) / 10 ^ e.natAbs = n * 10 ^ e := by
      rw [← zpow_natCast, Int.natCast_natAbs, abs_of_nonpos (by omega), zpow_neg, div_inv_eq_mul]
    rw [hexact] at hrounds
    obtain rfl := hrounds.unique hv
    refine ⟨_, ?_, hholds hbound⟩
    simp only [if_neg hsign]

/-- A double whose numeral is short is normal. -/
theorem exponent_ne_least {b : Binary} (hb : b.Canonical) {n : ℕ} {e : ℤ} (hpos : 0 < n)
    (he : e.natAbs ≤ 22) (h : b.Covers (n * 10 ^ e)) : b.exponent ≠ -1074 := by
  intro hleast
  have hhigh := h.bounds.2
  have hbounded : (b.significand : ℚ) < 2 ^ 53 := by exact_mod_cast hb.bounded
  have hone : (1 : ℚ) ≤ n := by exact_mod_cast hpos
  have hpow : (10 : ℚ) ^ (-22 : ℤ) ≤ 10 ^ e := zpow_le_zpow_right₀ (by norm_num) (by omega)
  have hunit : (2 : ℚ) ^ b.exponent ≤ 2 ^ (-200 : ℤ) := pow_two_le_iff.mpr (by omega)
  have hlow : (10 : ℚ) ^ (-22 : ℤ) ≤ n * 10 ^ e := by
    calc (10 : ℚ) ^ (-22 : ℤ) = 1 * 10 ^ (-22 : ℤ) := (one_mul _).symm
      _ ≤ n * 10 ^ e := mul_le_mul hone hpow (by positivity) (by positivity)
  have hup : (4 * (b.significand : ℚ) + 2) * 2 ^ b.exponent ≤ 2 ^ 56 * 2 ^ (-200 : ℤ) :=
    mul_le_mul (by linarith) hunit (pow_two_pos _).le (by norm_num)
  have hfalse : (4 : ℚ) * 10 ^ (-22 : ℤ) ≤ 2 ^ 56 * 2 ^ (-200 : ℤ) := by linarith
  norm_num at hfalse

/-- Zeros keep their sign. -/
theorem toFloat?_zero {x : Float} (hzero : x.toBits.toNat % signUnit = 0) :
    (⟨0, -1⟩ : Json.Scientific).toFloat? (isNegative x) = some x := by
  have hzeros : ∀ negative : Bool,
      ((⟨0, -1⟩ : Json.Scientific).toFloat? negative).map (·.toBits.toNat) =
        some (if negative then signUnit else 0) := by
    decide +kernel
  obtain ⟨y, hy, hbits⟩ := Option.map_eq_some_iff.mp (hzeros (isNegative x))
  rw [hy]
  refine congrArg some (eq_of_toBits_eq (UInt64.toNat_inj.mp (hbits.trans ?_)))
  have hlt := x.toBits.toNat_lt
  by_cases hbit : x.toBits.toNat / signUnit = 1
  · rw [if_pos (show isNegative x = true from decide_eq_true hbit)]
    simp only [signUnit] at *
    omega
  · rw [if_neg (show ¬isNegative x = true from fun h => hbit (of_decide_eq_true h))]
    simp only [signUnit] at *
    omega

/-- A numeral of so few digits, and with so small an exponent, that its significand and its power of
ten are doubles. -/
def Short (x : Float) : Prop :=
  (spelled x).significand < 2 ^ 53 ∧ (spelled x).exponent.natAbs ≤ 22

instance (x : Float) : Decidable (Short x) :=
  inferInstanceAs (Decidable (_ ∧ _))

theorem toFloat?_of_short {x : Float} (hx : x.isFinite = true) (hshort : Short x) :
    (spelled x).toFloat? (isNegative x) = some x := by
  by_cases hzero : x.toBits.toNat % signUnit = 0
  · rw [spelled, if_pos hzero]
    exact toFloat?_zero hzero
  · obtain ⟨hcovers, hpos, -, -⟩ := covers_spelled hx hzero
    have hcanonical := canonical_ofFloat (scale_of_isFinite hx) hzero
    have hfull := exponent_ne_least hcanonical hpos hshort.2 hcovers
    obtain ⟨a, ha, hsigned⟩ := exists_magnitude hx hzero hfull
    obtain ⟨y, hy, hvalue⟩ := scale_of_small hpos hshort.1 hshort.2 (hcanonical.rounds hfull hcovers)
    obtain rfl := hvalue.unique ha
    rw [Json.Scientific.toFloat?, hy]
    exact congrArg some hsigned

/-- **A double with a short numeral reads back.** -/
theorem reread_eq_self {x : Float} (hx : x.isFinite = true) (hshort : Short x) : reread x = x := by
  rw [reread, toFloat?_of_short hx hshort]
  rfl

/-! ## Nothing is out of range -/

/-- A quotient is never too large. -/
theorem exists_scale_of_neg {e : ℤ} (he : e < 0) (x : Float) : ∃ y, Json.scale x e = some y := by
  fun_induction Json.scale x e with
  | case1 x e hnear power hsign => omega
  | case2 x e hnear power hsign => omega
  | case3 x e hnear power hsign => exact ⟨_, rfl⟩
  | case4 x e hfar hzero => exact ⟨_, rfl⟩
  | case5 x e hfar hzero hsign => omega
  | case6 x e hfar hzero hsign ih => exact ih (by omega)

/-- The largest powers of ten and the largest significands beside them: the power is rounded, the
significand is rounded up, and the product is still short of what rounds to infinity. -/
theorem top_products : ∀ i < 53,
    let power := 10 ^ (256 + i)
    let s := power.log2 - 52
    let n := (2 * power + 2 ^ s) / 2 ^ (s + 1)
    let most := min (10 ^ 18) (halves (2 ^ 54 - 3) / power)
    let t := most.log2 - 52
    let c := (most + 2 ^ t - 1) / 2 ^ t
    2 ^ 52 * 2 ^ s ≤ power ∧ power < 2 ^ 53 * 2 ^ s ∧
      (2 * n - 1) * 2 ^ s < 2 * power ∧ 2 * power < (2 * n + 1) * 2 ^ s ∧ 0 < n ∧
      c < 2 ^ 53 ∧ most ≤ c * 2 ^ t ∧ c * 2 ^ t * (n * 2 ^ s) < halves (2 ^ 54 - 1) := by
  decide +kernel

/-- A number that is nearest with a margin. -/
theorem nearest_of_lt {a n s : ℕ} (hpos : 0 < n) (hlow : (2 * n - 1) * 2 ^ s < 2 * a)
    (hhigh : 2 * a < (2 * n + 1) * 2 ^ s) : Nearest ((a : ℚ) / 2 ^ s) n := by
  have hunit : (0 : ℚ) < 2 ^ s := by positivity
  have hlow' : (2 * (n : ℚ) - 1) * 2 ^ s < 2 * a := by
    have hcast : (((2 * n - 1) * 2 ^ s : ℕ) : ℚ) < (2 * a : ℕ) := by exact_mod_cast hlow
    rw [Nat.cast_mul, Nat.cast_sub (by omega)] at hcast
    exact_mod_cast hcast
  have hhigh' : 2 * (a : ℚ) < (2 * n + 1) * 2 ^ s := by exact_mod_cast hhigh
  left
  rw [abs_lt, lt_sub_iff_add_lt, lt_div_iff₀ hunit, sub_lt_iff_lt_add, div_lt_iff₀ hunit]
  constructor <;> linarith

/-- The product of a significand and a power of ten, each rounded, is short of what is too large. -/
theorem product_lt {m k : ℕ} {d p : ℚ} (hpos : 0 < m) (hm : m ≤ 10 ^ 18) (hk : k ≤ 308)
    (htop : m * 10 ^ k ≤ halves (2 ^ 54 - 3)) (hd : Rounds m d) (hp : Rounds (10 ^ k) p) :
    d * p < halves (2 ^ 54 - 1) := by
  have hd0 : (0 : ℚ) ≤ d := zero_le_one.trans (hd.one_le (by exact_mod_cast hpos))
  have hp0 : (0 : ℚ) ≤ p := zero_le_one.trans (hp.one_le (one_le_pow₀ (by norm_num)))
  rcases Nat.lt_or_ge k 256 with hlow | hhigh
  · have hd2 : d ≤ 2 * 10 ^ 18 := by
      have hcast : (m : ℚ) ≤ 10 ^ 18 := by exact_mod_cast hm
      linarith [hd.le_two_mul]
    have hp2 : p ≤ 2 * 10 ^ 255 := by
      have hpow : (10 : ℚ) ^ k ≤ 10 ^ 255 := pow_le_pow_right₀ (by norm_num) (by omega)
      linarith [hp.le_two_mul]
    have hcrude : 2 * 10 ^ 18 * (2 * 10 ^ 255) < halves (2 ^ 54 - 1) := by decide +kernel
    have hcast : ((2 * 10 ^ 18 * (2 * 10 ^ 255) : ℕ) : ℚ) < halves (2 ^ 54 - 1) := Nat.cast_lt.mpr hcrude
    calc d * p ≤ 2 * 10 ^ 18 * (2 * 10 ^ 255) := mul_le_mul hd2 hp2 hp0 (by positivity)
      _ = (2 * 10 ^ 18 * (2 * 10 ^ 255) : ℕ) := by norm_num
      _ < halves (2 ^ 54 - 1) := hcast
  · obtain ⟨i, rfl⟩ := Nat.exists_eq_add_of_le hhigh
    obtain ⟨hbelow, habove, hnlow, hnhigh, hn, hc, hmost, hproduct⟩ := top_products i (by omega)
    have hpower : (10 : ℚ) ^ (256 + i) = (10 ^ (256 + i) : ℕ) := by push_cast; rfl
    rw [hpower] at hp
    generalize 10 ^ (256 + i) = power at *
    generalize power.log2 - 52 = s at *
    generalize (2 * power + 2 ^ s) / 2 ^ (s + 1) = n at *
    have hle : m ≤ min (10 ^ 18) (halves (2 ^ 54 - 3) / power) :=
      le_min hm ((Nat.le_div_iff_mul_le (by omega)).mpr htop)
    generalize min (10 ^ 18) (halves (2 ^ 54 - 3) / power) = most at *
    generalize most.log2 - 52 = t at *
    generalize (most + 2 ^ t - 1) / 2 ^ t = c at *
    have hunit : (0 : ℚ) < 2 ^ s := by positivity
    have hpvalue : p = n * 2 ^ s := by
      have hrounds : Rounds (power / 2 ^ s * 2 ^ (s : ℤ)) (n * 2 ^ (s : ℤ)) := by
        refine Rounds.intro ?_ ?_ (nearest_of_lt hn hnlow hnhigh)
        · rw [le_div_iff₀ hunit]
          exact_mod_cast hbelow
        · rw [div_lt_iff₀ hunit]
          exact_mod_cast habove
      rw [zpow_natCast, div_mul_cancel₀ _ hunit.ne'] at hrounds
      exact hp.unique hrounds
    have hdvalue : d ≤ c * 2 ^ t := by
      have hbound : (m : ℚ) ≤ c * 2 ^ (t : ℤ) := by
        rw [zpow_natCast]
        exact_mod_cast hle.trans hmost
      have hrounded := hd.le_of_le hc hbound
      rwa [zpow_natCast] at hrounded
    calc d * p ≤ c * 2 ^ t * (n * 2 ^ s) := by
          rw [hpvalue]
          exact mul_le_mul_of_nonneg_right hdvalue (by positivity)
      _ = (c * 2 ^ t * (n * 2 ^ s) : ℕ) := by push_cast; rfl
      _ < halves (2 ^ 54 - 1) := Nat.cast_lt.mpr hproduct

/-- Such a product is in range. -/
theorem exists_scale_of_le {m k : ℕ} (hpos : 0 < m) (hm : m ≤ 10 ^ 18)
    (htop : m * 10 ^ k ≤ halves (2 ^ 54 - 3)) : ∃ y, Json.scale m.toUInt64.toFloat k = some y := by
  have hk : k ≤ 308 := by
    by_contra hmore
    obtain ⟨j, rfl⟩ := Nat.exists_eq_add_of_le (show 255 ≤ k by omega)
    have hlarge : halves (2 ^ 54 - 3) < 10 ^ 255 * 10 ^ 54 := by decide +kernel
    have hpow : 10 ^ 255 * 10 ^ 54 ≤ 10 ^ (255 + j) := by
      rw [pow_add]
      exact Nat.mul_le_mul_left _ (Nat.pow_le_pow_right (by decide) (by omega))
    exact hlarge.not_ge (hpow.trans ((Nat.le_mul_of_pos_left _ hpos).trans htop))
  obtain ⟨d, hd, hdholds⟩ := becomes_toFloat hpos (Nat.lt_of_le_of_lt hm (by decide))
  obtain ⟨p, hp, hy⟩ := holds_power_of_le hk
  have hx := hdholds (hd.lt_top (Nat.cast_lt.mpr (hm.trans_lt (by decide +kernel))))
  obtain ⟨r, hr, hrholds⟩ := becomes_mul hx hy (hd.one_le (by exact_mod_cast hpos))
    (hp.one_le (one_le_pow₀ (by norm_num)))
  have hz := hrholds (hr.lt_top (product_lt hpos hm hk htop hd hp))
  rw [Json.scale, if_pos (by omega)]
  simp only [Int.natAbs_natCast, if_pos (Int.natCast_nonneg k), hz.isInf, Bool.false_eq_true, if_false]
  exact ⟨_, rfl⟩

/-- The largest double. -/
theorem exists_scale_largest :
    ∃ y, Json.scale (Binary.shortest ⟨2 ^ 53 - 1, 971, false⟩).spelled.significand.toUInt64.toFloat
      (Binary.shortest ⟨2 ^ 53 - 1, 971, false⟩).spelled.exponent = some y :=
  Option.isSome_iff_exists.mp (by decide +kernel)

/-- What is below the largest double is written below the middle between them. -/
theorem le_halves {b : Binary} (hb : b.Canonical)
    (hbelow : ¬(b.significand = 2 ^ 53 - 1 ∧ b.exponent = 971)) {m k : ℕ}
    (h : b.Covers (m * 10 ^ (k : ℤ))) : m * 10 ^ k ≤ halves (2 ^ 54 - 3) := by
  have hhigh := h.bounds.2
  have hedge : (4 * (b.significand : ℚ) + 2) * 2 ^ b.exponent ≤ 4 * ((2 ^ 54 - 3) * 2 ^ (970 : ℤ)) := by
    have hpos : (0 : ℚ) ≤ 4 * b.significand + 2 := by positivity
    have hbounded := hb.bounded
    simp only [scaleUnit] at hbounded
    rcases hb.high.lt_or_eq with hlow | htop
    · have hexponent : (2 : ℚ) ^ b.exponent ≤ 2 ^ (970 : ℤ) := pow_two_le_iff.mpr (by omega)
      have hsignificand : (b.significand : ℚ) + 1 ≤ 2 ^ 53 := by
        have hle : b.significand + 1 ≤ 2 ^ 53 := by omega
        exact_mod_cast hle
      calc (4 * (b.significand : ℚ) + 2) * 2 ^ b.exponent
          ≤ (4 * b.significand + 2) * 2 ^ (970 : ℤ) := mul_le_mul_of_nonneg_left hexponent hpos
        _ ≤ 4 * (2 ^ 54 - 3) * 2 ^ (970 : ℤ) :=
            mul_le_mul_of_nonneg_right (by linarith) (pow_two_pos 970).le
        _ = 4 * ((2 ^ 54 - 3) * 2 ^ (970 : ℤ)) := mul_assoc _ _ _
    · have hsignificand : (b.significand : ℚ) + 2 ≤ 2 ^ 53 := by
        have hle : b.significand + 2 ≤ 2 ^ 53 := by omega
        exact_mod_cast hle
      rw [htop, show (971 : ℤ) = 1 + 970 by decide, zpow_one_add₀ (by norm_num), ← mul_assoc,
        ← mul_assoc]
      exact mul_le_mul_of_nonneg_right (by linarith) (pow_two_pos 970).le
  have hunits : ((2 ^ 54 - 3 : ℕ) : ℚ) = 2 ^ 54 - 3 := by norm_num
  have hcast : (((m * 10 ^ k : ℕ) : ℚ)) ≤ halves (2 ^ 54 - 3) := by
    rw [cast_halves, hunits, Nat.cast_mul, Nat.cast_pow, Nat.cast_ofNat, ← zpow_natCast]
    exact le_of_mul_le_mul_left (hhigh.trans hedge) (by norm_num)
  exact Nat.cast_le.mp hcast

/-- **The numeral of a finite double is in range.** -/
theorem toFloat?_spelled {x : Float} (hx : x.isFinite = true) :
    (spelled x).toFloat? (isNegative x) = some (reread x) := by
  have hsome : ∃ y, (spelled x).toFloat? (isNegative x) = some y := by
    by_cases hzero : x.toBits.toNat % signUnit = 0
    · rw [spelled, if_pos hzero]
      exact ⟨x, toFloat?_zero hzero⟩
    · have hscale : ∃ y, Json.scale (spelled x).significand.toUInt64.toFloat (spelled x).exponent =
          some y := by
        have hcanonical := canonical_ofFloat (scale_of_isFinite hx) hzero
        obtain ⟨hcovers, hpos, -, hdigits⟩ := covers_spelled hx hzero
        rcases lt_or_ge (spelled x).exponent 0 with hdown | hup
        · exact exists_scale_of_neg hdown _
        · by_cases hlargest : (Binary.ofFloat x).significand = 2 ^ 53 - 1 ∧
              (Binary.ofFloat x).exponent = 971
          · have heq : Binary.ofFloat x = ⟨2 ^ 53 - 1, 971, false⟩ := by
              have htight : (Binary.ofFloat x).tight = false := by
                rw [← Bool.not_eq_true, hcanonical.tight, hlargest.1]
                exact fun h => absurd h.1 (by decide)
              obtain ⟨hsignificand, hexponent⟩ := hlargest
              rw [← hsignificand, ← hexponent, ← htight]
            rw [spelled, if_neg hzero, heq]
            exact exists_scale_largest
          · obtain ⟨k, hk⟩ := Int.eq_ofNat_of_zero_le hup
            rw [hk] at hcovers ⊢
            exact exists_scale_of_le hpos (hdigits hup) (le_halves hcanonical hlargest hcovers)
      obtain ⟨y, hy⟩ := hscale
      exact ⟨_, congrArg (Option.map _) hy⟩
  obtain ⟨y, hy⟩ := hsome
  rw [reread, hy]
  rfl

/-! ## Nothing becomes infinite -/

theorem isFinite_scale {x y : Float} {e : ℤ} (hx : x.isFinite = true)
    (h : Json.scale x e = some y) : y.isFinite = true := by
  fun_induction Json.scale x e with
  | case1 x e hnear power hsign product hinfinite => cases h
  | case2 x e hnear power hsign product hrange =>
      rw [← Option.some.inj h]
      exact isFinite_mul hx (isFinite_power hnear) (Bool.eq_false_of_not_eq_true hrange)
  | case3 x e hnear power hsign =>
      rw [← Option.some.inj h]
      exact isFinite_div_power hx (by omega) hnear
  | case4 x e hfar hzero =>
      cases h
      exact hx
  | case5 x e hfar hzero hsign => cases h
  | case6 x e hfar hzero hsign ih => exact ih (isFinite_div_power hx (by decide) (by decide)) h

/-- What a numeral is read as is finite. -/
theorem isFinite_toFloat? {n : Json.Scientific} {negative : Bool} {x : Float}
    (h : n.toFloat? negative = some x) : x.isFinite = true := by
  obtain ⟨y, hy, rfl⟩ := Option.map_eq_some_iff.mp h
  have hfinite := isFinite_scale (isFinite_toFloat _) hy
  split
  · exact isFinite_neg hfinite
  · exact hfinite

theorem isFinite_reread {x : Float} (hx : x.isFinite = true) : (reread x).isFinite = true :=
  isFinite_toFloat? (toFloat?_spelled hx)

end Decimal

end LiveDiagram
