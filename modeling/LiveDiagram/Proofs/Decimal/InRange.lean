import LiveDiagram.Proofs.Decimal.Doubles

/-!
# Results that are in range

Where doubles end matters in two places only.  Packing makes infinity of a number whose exponent is too
large, and that is the one way in which a product of finite doubles can fail to be finite.  A quotient
by ten or by a larger power of ten is never that large, whatever is rounded away below.

## Main results

* `isFinite_mul`, `isFinite_div_power`: products and quotients.
* `holds_power_of_le`: the powers of ten in the table.
-/

namespace LiveDiagram.Decimal
open Float.Model Float.Model.UnpackedFloat

/-! ## Packing -/

/-- Packing makes a number infinite only if its exponent is too large. -/
theorem isFinite_pack {u : UnpackedFloat} (hu : u.isFinite = true)
    (he : ∀ s m e hpos, u = .finite s m e hpos → e ≤ 971) :
    (Float.Model.pack u).unpack.isFinite = true := by
  cases u with
  | infinity s => cases hu
  | notANumber => cases hu
  | zero s => cases s <;> rfl
  | finite s m e hpos =>
      have hexponent := he s m e hpos rfl
      have hpack : ∃ v w, UnpackedFloat.pack Format.binary64 (.finite s m e hpos) =
          packComponents Format.binary64 s v w ∧ v ≠ -1#11 := by
        show ∃ v w, (if 2 ^ 11 ≤ (e + (1023 : ℕ) + (52 : ℕ)).toNat + 1 then _ else _) = _ ∧ _
        rw [if_neg (by omega)]
        split
        · refine ⟨_, _, rfl, fun h => ?_⟩
          have hscale := congrArg BitVec.toNat h
          rw [BitVec.toNat_ofNat] at hscale
          have hones : (-1#11).toNat = 2047 := rfl
          have hlt : (e + (1023 : ℕ) + (52 : ℕ)).toNat < 2047 := by omega
          change (e + (1023 : ℕ) + (52 : ℕ)).toNat % 2 ^ 11 = _ at hscale
          omega
        · exact ⟨_, _, rfl, by decide⟩
      obtain ⟨v, w, hpack, hv⟩ := hpack
      show (UnpackedFloat.unpack Format.binary64 (UnpackedFloat.pack Format.binary64 _)).isFinite = _
      rw [hpack, UnpackedFloat.unpack]
      simp only [unpackExponent_packComponents, if_neg hv]
      split
      · split <;> rfl
      · rfl

/-- A number that is too large is packed as infinity. -/
theorem unpack_pack_of_overflow {s : Sign} {m : ℕ} {e : ℤ} {hpos : 0 < m} (h : 972 ≤ e) :
    (Float.Model.pack (.finite s m e hpos)).unpack = .infinity s := by
  have hpack : UnpackedFloat.pack Format.binary64 (.finite s m e hpos) =
      packedInfinity Format.binary64 s := by
    show (if 2 ^ 11 ≤ (e + (1023 : ℕ) + (52 : ℕ)).toNat + 1 then _ else _) = _
    rw [if_pos (by omega)]
  show UnpackedFloat.unpack Format.binary64 (UnpackedFloat.pack Format.binary64 _) = _
  rw [hpack]
  cases s <;> rfl

theorem isFinite_of_isInf {u : UnpackedFloat} (hu : u.isFinite = true)
    (h : (Float.Model.pack u).unpack.isInf = false) :
    (Float.Model.pack u).unpack.isFinite = true := by
  refine isFinite_pack hu fun s m e hpos hfinite => ?_
  by_contra hlarge
  rw [hfinite, unpack_pack_of_overflow (by omega)] at h
  cases h

/-! ## The last step of an operation -/

theorem mantissa_shiftRight (em : ExtendedMantissa) (k : ℕ) :
    (em >>> k).mantissa = em.mantissa / 2 ^ k := by
  induction k with
  | zero => rw [pow_zero, Nat.div_one]; rfl
  | succ k ih =>
      show (em >>> k).shiftRightOne.mantissa = _
      rw [pow_succ, ← Nat.div_div_eq_div_mul, ← ih]
      rfl

theorem mantissa_ofMantissaAndAccuracy (m : ℕ) (a : Accuracy) :
    (ExtendedMantissa.ofMantissaAndAccuracy m a).mantissa = m := by
  rcases a with _ | o
  · rfl
  · cases o <;> rfl

/-- Rounding goes up by one at most. -/
theorem roundedMantissa_le (em : ExtendedMantissa) : em.roundedMantissa ≤ em.mantissa + 1 := by
  rw [ExtendedMantissa.roundedMantissa]
  generalize em.accuracy = a
  rcases a with _ | o
  · exact Nat.le_succ _
  · cases o <;> simp only [Accuracy.roundToNearestEven] <;> omega

/-- What the shift to the target exponent leaves. -/
theorem exists_shiftToTargetExponent (m : ℕ) (e : ℤ) (a : Accuracy) :
    ∃ em g, shiftToTargetExponent Format.binary64 m e a = (em, g) ∧
      g = max e (max ((m.log2 : ℤ) + e - 52) (-1074)) ∧
      em.mantissa = m / 2 ^ (g - e).toNat := by
  have htarget : Format.binary64.targetExponent (totalExponent m e) =
      max ((m.log2 : ℤ) + e - 52) (-1074) := by
    rw [Format.targetExponent, totalExponent]
    show max (((m.log2 : ℕ) : ℤ) + 1 + e - (53 : ℕ)) (-1074) = _
    omega
  refine ⟨_, _, rfl, ?_, ?_⟩
  · rw [htarget]
    omega
  · rw [mantissa_shiftRight, mantissa_ofMantissaAndAccuracy]
    congr 2
    omega

/-- A result that is not too large before it is rounded is finite. -/
theorem isFinite_roundWithAccuracy {s : Sign} {m : ℕ} {e : ℤ} {a : Accuracy} (he : e ≤ 970)
    (hm : m.log2 + e ≤ 1021) :
    (Float.Model.pack (roundWithAccuracy Format.binary64 s m e a)).unpack.isFinite = true := by
  obtain ⟨em, g, hfirst, hg, hmantissa⟩ := exists_shiftToTargetExponent m e a
  obtain ⟨em', g', hsecond, hg', -⟩ := exists_shiftToTargetExponent em.roundedMantissa g .exact
  have hlog : (em.roundedMantissa.log2 : ℤ) + g ≤ 1022 := by
    -- One more bit would have been one of the number itself, less at most the one that rounding added.
    by_contra hmore
    obtain ⟨j, hj⟩ : ∃ j : ℕ, (1022 : ℤ) - g = j + 1 := ⟨(1021 - g).toNat, by omega⟩
    have hne : em.roundedMantissa ≠ 0 := by
      intro hzero
      rw [hzero, Nat.log2_zero] at hmore
      omega
    have hbits : 2 ^ (j + 2) ≤ em.roundedMantissa := (Nat.le_log2 hne).mp (by omega)
    have hle := roundedMantissa_le em
    have hpow : 2 ^ (j + 1) ≤ m / 2 ^ (g - e).toNat := by
      rw [← hmantissa]
      have hpos : 0 < 2 ^ (j + 1) := Nat.two_pow_pos _
      have hdouble : 2 ^ (j + 2) = 2 * 2 ^ (j + 1) := by rw [pow_succ, mul_comm]
      omega
    rw [Nat.le_div_iff_mul_le (Nat.two_pow_pos _), ← pow_add] at hpow
    have hm0 : m ≠ 0 := fun h => by
      rw [h] at hpow
      exact absurd hpow (Nat.not_le.mpr (Nat.two_pow_pos _))
    have hlogm := (Nat.le_log2 hm0).mpr hpow
    omega
  have hround : roundWithAccuracy Format.binary64 s m e a =
      if h : em'.mantissa = 0 then .zero s else .finite s em'.mantissa g' (Nat.pos_of_ne_zero h) := by
    simp only [roundWithAccuracy, hfirst, hsecond]
  rw [hround]
  split
  · exact isFinite_pack rfl fun s m e hpos h => by cases h
  · refine isFinite_pack rfl fun s m e hpos h => ?_
    cases h
    omega

theorem isFinite_result (s : Sign) (m : ℕ) (e : ℤ) (a : Accuracy) :
    (roundWithAccuracy Format.binary64 s m e a).isFinite = true := by
  simp only [roundWithAccuracy]
  split <;> rfl

/-! ## Products and quotients -/

theorem isFinite_iff {u : UnpackedFloat} :
    u.isFinite = true ↔ (∃ s, u = .zero s) ∨ ∃ s m e hpos, u = .finite s m e hpos := by
  constructor
  · intro h
    cases u with
    | infinity s => cases h
    | notANumber => cases h
    | zero s => exact .inl ⟨s, rfl⟩
    | finite s m e hpos => exact .inr ⟨s, m, e, hpos, rfl⟩
  · rintro (⟨s, rfl⟩ | ⟨s, m, e, hpos, rfl⟩) <;> rfl

/-- A product that is not infinite is finite. -/
theorem isFinite_mul {x y : Float} (hx : x.isFinite = true) (hy : y.isFinite = true)
    (h : (x * y).isInf = false) : (x * y).isFinite = true := by
  refine isFinite_of_isInf (u := UnpackedFloat.mul Format.binary64 x.toModel.unpack y.toModel.unpack)
    ?_ h
  rcases isFinite_iff.mp hx with ⟨s, hx⟩ | ⟨s, m, e, hm, hx⟩ <;>
    rcases isFinite_iff.mp hy with ⟨t, hy⟩ | ⟨t, n, f, hn, hy⟩ <;> rw [hx, hy]
  · rfl
  · rfl
  · rfl
  · exact isFinite_result _ _ _ _

/-- A quotient by eight or more is finite. -/
theorem isFinite_div {x y : Float} (hx : x.isFinite = true) {n : ℕ} {f : ℤ} {hpos : 0 < n}
    (hy : y.toModel.unpack = .finite .positive n f hpos) (hn : 2 ^ 52 ≤ n) (hf : -49 ≤ f) :
    (x / y).isFinite = true := by
  have hnlog : n.log2 = 52 := (Nat.log2_eq_iff hpos.ne').mpr ⟨hn, (bounds_of_unpack hy).1⟩
  show (Float.Model.pack
    (UnpackedFloat.div Format.binary64 x.toModel.unpack y.toModel.unpack)).unpack.isFinite = true
  rcases isFinite_iff.mp hx with ⟨s, hx⟩ | ⟨s, m, e, hm, hx⟩ <;> rw [hx, hy]
  · exact isFinite_pack rfl fun _ _ _ _ h => by cases h
  · obtain ⟨hmhigh, -, he⟩ := bounds_of_unpack hx
    have hmlog : m.log2 < 53 := (Nat.log2_lt hm.ne').mpr hmhigh
    obtain ⟨k, t, a, hcore, ht, hk⟩ : ∃ (k : ℕ) (t : ℤ) (a : Accuracy),
        divCore Format.binary64 m e n f = (m * 2 ^ k / n, t, a) ∧ t ≤ 970 ∧ k + t = e - f := by
      have htarget : Format.binary64.targetExponent (totalExponent m e - totalExponent n f) =
          max ((m.log2 : ℤ) + e - f - 105) (-1074) := by
        rw [Format.targetExponent, totalExponent, totalExponent, hnlog]
        show max (((m.log2 : ℕ) : ℤ) + 1 + e - (((52 : ℕ) : ℤ) + 1 + f) - (53 : ℕ)) (-1074) = _
        omega
      set t := min (e - f) (max ((m.log2 : ℤ) + e - f - 105) (-1074)) with ht
      refine ⟨(e - f - t).toNat, t, accuracyOfFraction (m * 2 ^ (e - f - t).toNat % n) n, ?_,
        by omega, by omega⟩
      simp only [divCore, htarget, Nat.shiftLeft_eq, ht]
    have hlog : ((m * 2 ^ k / n).log2 : ℤ) + t ≤ 1021 := by
      rcases Nat.eq_zero_or_pos (m * 2 ^ k / n) with hzero | hquotient
      · rw [hzero, Nat.log2_zero]
        omega
      · have hle := Nat.log2_self_le hquotient.ne'
        rw [Nat.le_div_iff_mul_le hpos] at hle
        have hpow : 2 ^ ((m * 2 ^ k / n).log2 + 52) ≤ m * 2 ^ k := by
          rw [pow_add]
          exact (Nat.mul_le_mul_left _ hn).trans hle
        have hlt : m * 2 ^ k < 2 ^ (53 + k) := by
          rw [pow_add]
          exact Nat.mul_lt_mul_of_pos_right hmhigh (Nat.two_pow_pos k)
        have := (Nat.pow_lt_pow_iff_right (by decide)).mp (hpow.trans_lt hlt)
        omega
    simp only [UnpackedFloat.div, hcore]
    exact isFinite_roundWithAccuracy ht hlog

theorem isFinite_neg {x : Float} (hx : x.isFinite = true) : (-x).isFinite = true := by
  show (Float.Model.pack x.toModel.unpack.neg).unpack.isFinite = true
  rcases isFinite_iff.mp hx with ⟨s, hx⟩ | ⟨s, m, e, hm, hx⟩ <;> rw [hx]
  · exact isFinite_pack rfl fun _ _ _ _ h => by cases h
  · refine isFinite_pack rfl fun _ _ _ _ h => ?_
    cases h
    exact (bounds_of_unpack hx).2.2

theorem Holds.isFinite {x : Float} {q : ℚ} (h : Holds x q) : x.isFinite = true := by
  obtain ⟨m, e, hpos, hunpack, -⟩ := h
  exact isFinite_iff.mpr (.inr ⟨_, _, _, _, hunpack⟩)

theorem isFinite_toFloat (n : UInt64) : n.toFloat.isFinite = true := by
  rcases Nat.eq_zero_or_pos n.toNat with hzero | hpos
  · obtain rfl : n = 0 := UInt64.toNat_inj.mp hzero
    decide +kernel
  · obtain ⟨r, hrounds, hholds⟩ := becomes_toFloat hpos n.toNat_lt
    rw [Nat.toUInt64, UInt64.ofNat_toNat] at hholds
    exact (hholds (hrounds.lt_top (Nat.cast_lt.mpr (n.toNat_lt.trans (by decide +kernel))))).isFinite

/-! ## Powers of ten -/

/-- Every power of ten in the table is in range. -/
theorem holds_power_of_le {k : ℕ} (hk : k ≤ 308) :
    ∃ r, Rounds (10 ^ k) r ∧ Holds (Float.ofScientific 1 false k) r := by
  obtain ⟨r, hrounds, hholds⟩ := becomes_power hk
  refine ⟨r, hrounds, hholds (hrounds.lt_top ?_)⟩
  have htop : 10 ^ 154 * 10 ^ 154 < halves (2 ^ 54 - 1) := by decide +kernel
  calc (10 : ℚ) ^ k ≤ 10 ^ (154 + 154) := pow_le_pow_right₀ (by norm_num) hk
    _ = (10 ^ 154 * 10 ^ 154 : ℕ) := by rw [pow_add]; norm_num
    _ < halves (2 ^ 54 - 1) := Nat.cast_lt.mpr htop

theorem isFinite_power {k : ℕ} (hk : k ≤ 308) :
    (Float.ofScientific 1 false k).isFinite = true := by
  obtain ⟨r, -, hholds⟩ := holds_power_of_le hk
  exact hholds.isFinite

/-- A quotient by a power of ten is finite. -/
theorem isFinite_div_power {x : Float} (hx : x.isFinite = true) {k : ℕ} (hpos : 0 < k) (hk : k ≤ 308) :
    (x / Float.ofScientific 1 false k).isFinite = true := by
  obtain ⟨r, hrounds, n, f, hn0, hunpack, hn, rfl⟩ := holds_power_of_le hk
  have hlarge : (2 : ℚ) ^ (3 : ℤ) ≤ 10 ^ k :=
    calc (2 : ℚ) ^ (3 : ℤ) ≤ 10 ^ 1 := by norm_num
      _ ≤ 10 ^ k := pow_le_pow_right₀ (by norm_num) hpos
  have hlow := low_of_pow_le (bounds_of_unpack hunpack).1 (hrounds.pow_le hlarge)
  exact isFinite_div hx hunpack hn (by omega)

end LiveDiagram.Decimal
