import Mathlib
import LiveDiagram.Proofs.Decimal.Rounding

/-!
# Doubles and their values

A double unpacks into sign, significand and exponent.  The operations work on these, and the last
step of each drops the bits beyond the 53rd, remembering enough of them to round.  Here the operations
are described with rationals: a product or quotient is the exact one, rounded once (`Becomes`), as
long as the operands have all their bits and the result is not too small for that.

A positive double with all 53 bits is determined by its value (`Holds`).

## Main results

* `unpack_eq_finite_iff`: unpacking gives the fields of the pattern.
* `roundWithAccuracy_rounds`: what the last step of every operation does.
* `becomes_mul`, `becomes_div`: products and quotients.
* `becomes_toFloat`, `becomes_power`: doubles made of natural numbers and of powers of ten.
-/

namespace LiveDiagram.Decimal
open Float.Model Float.Model.UnpackedFloat

/-! ## Patterns -/

theorem toNat_unpackMantissa (b : BitVec 64) :
    (@unpackMantissa Format.binary64 b).toNat = b.toNat % signUnit % scaleUnit := by
  simp [unpackMantissa, scaleUnit, signUnit]

theorem toNat_unpackExponent (b : BitVec 64) :
    (@unpackExponent Format.binary64 b).toNat = b.toNat % signUnit / scaleUnit := by
  have hlt := b.isLt
  simp only [unpackExponent, BitVec.toNat_cast, BitVec.extractLsb_toNat, Nat.shiftRight_eq_div_pow,
    signUnit, scaleUnit]
  omega

theorem toNat_unpackSign (b : BitVec 64) :
    (@unpackSign Format.binary64 b).toNat = b.toNat / signUnit := by
  have hlt := b.isLt
  simp only [unpackSign, BitVec.toNat_cast, BitVec.extractLsb_toNat, Nat.shiftRight_eq_div_pow,
    signUnit]
  omega

theorem toNat_implicitBit (v : BitVec 52) : (1#1 ++ v).toNat = scaleUnit + v.toNat := by
  rw [BitVec.toNat_append, ← Nat.shiftLeft_add_eq_or_of_lt v.isLt]
  simp [Nat.shiftLeft_eq, scaleUnit]

/-- The sign of a double, that of zeros included. -/
def signOf (x : Float) : Sign :=
  if x.toBits.toNat / signUnit = 0 then .positive else .negative

/-- Unpacking, on the fields of the pattern as numbers. -/
theorem unpack_eq (x : Float) :
    x.toModel.unpack =
      let bits := x.toBits.toNat % signUnit
      if bits / scaleUnit = 2047 then
        if bits % scaleUnit = 0 then .infinity (signOf x) else .notANumber
      else if bits / scaleUnit = 0 then
        if h : bits % scaleUnit = 0 then .zero (signOf x)
        else .finite (signOf x) (bits % scaleUnit) (-1074) (Nat.pos_of_ne_zero h)
      else .finite (signOf x) (scaleUnit + bits % scaleUnit) ((bits / scaleUnit : ℕ) - 1075)
        (Nat.add_pos_left (by decide) _) := by
  have hmantissa := toNat_unpackMantissa x.toBits.toBitVec
  have hexponent := toNat_unpackExponent x.toBits.toBitVec
  have hsign := toNat_unpackSign x.toBits.toBitVec
  have himplicit := toNat_implicitBit (@unpackMantissa Format.binary64 x.toBits.toBitVec)
  rw [UInt64.toNat_toBitVec] at hmantissa hexponent hsign
  have hpositive : Sign.ofBitVec (@unpackSign Format.binary64 x.toBits.toBitVec) = signOf x := by
    rw [Sign.ofBitVec, signOf, ← hsign]
    exact if_congr BitVec.toNat_inj.symm rfl rfl
  have hones : @unpackExponent Format.binary64 x.toBits.toBitVec = -1#11 ↔
      x.toBits.toNat % signUnit / scaleUnit = 2047 := by
    rw [← BitVec.toNat_inj, hexponent]
    rfl
  have hnone : @unpackExponent Format.binary64 x.toBits.toBitVec = 0#11 ↔
      x.toBits.toNat % signUnit / scaleUnit = 0 := by
    rw [← BitVec.toNat_inj, hexponent]
    rfl
  have hzero : @unpackMantissa Format.binary64 x.toBits.toBitVec = 0#52 ↔
      x.toBits.toNat % signUnit % scaleUnit = 0 := by
    rw [← BitVec.toNat_inj, hmantissa]
    rfl
  show UnpackedFloat.unpack Format.binary64 x.toBits.toBitVec = _
  simp only [UnpackedFloat.unpack, hpositive, hones, hnone, hzero, hexponent, hmantissa, himplicit]
  refine if_congr Iff.rfl rfl (ite_congr rfl (fun hscale => ?_) fun _ => ?_)
  · simp only [hscale]
    rfl
  · rfl

/-- What is true of the significand and the exponent of a finite double other than zero: all 53 bits are
used, unless the exponent is the least one. -/
structure Binary.Canonical (b : Binary) : Prop where
  pos : 0 < b.significand
  bounded : b.significand < 2 * scaleUnit
  low : -1074 ≤ b.exponent
  high : b.exponent ≤ 971
  full : scaleUnit ≤ b.significand ∨ b.exponent = -1074
  tight : b.tight = true ↔ b.significand = scaleUnit ∧ b.exponent ≠ -1074

section

variable {x : Float}

theorem ofFloat_least (h : x.toBits.toNat % signUnit / scaleUnit = 0) :
    Binary.ofFloat x = ⟨x.toBits.toNat % signUnit % scaleUnit, -1074, false⟩ :=
  if_pos h

theorem ofFloat_full (h : x.toBits.toNat % signUnit / scaleUnit ≠ 0) :
    Binary.ofFloat x =
      ⟨scaleUnit + x.toBits.toNat % signUnit % scaleUnit,
        (x.toBits.toNat % signUnit / scaleUnit : ℕ) - 1075,
        x.toBits.toNat % signUnit % scaleUnit == 0 &&
          x.toBits.toNat % signUnit / scaleUnit != 1⟩ :=
  if_neg h

/-- Unpacking gives the fields of the pattern. -/
theorem unpack_eq_finite_iff {s : Sign} {m : ℕ} {e : ℤ} {hpos : 0 < m} :
    x.toModel.unpack = .finite s m e hpos ↔
      x.toBits.toNat % signUnit / scaleUnit ≠ 2047 ∧ x.toBits.toNat % signUnit ≠ 0 ∧
        s = signOf x ∧ m = (Binary.ofFloat x).significand ∧ e = (Binary.ofFloat x).exponent := by
  rw [unpack_eq]
  by_cases hscale : x.toBits.toNat % signUnit / scaleUnit = 2047
  · simp only [hscale, if_true]
    split <;> simp
  · by_cases hleast : x.toBits.toNat % signUnit / scaleUnit = 0
    · have hnumber : x.toBits.toNat % signUnit % scaleUnit = x.toBits.toNat % signUnit := by
        rw [Nat.div_eq_zero_iff_lt (by decide)] at hleast
        exact Nat.mod_eq_of_lt hleast
      rw [ofFloat_least hleast]
      by_cases hzero : x.toBits.toNat % signUnit = 0
      · simp [hzero]
      · simp [hleast, hzero, hnumber, eq_comm]
    · rw [ofFloat_full hleast]
      have hzero : x.toBits.toNat % signUnit ≠ 0 := fun hzero => hleast (by rw [hzero]; rfl)
      simp [hscale, hleast, hzero, eq_comm]

theorem scale_of_isFinite (h : x.isFinite = true) :
    x.toBits.toNat % signUnit / scaleUnit ≠ 2047 := by
  intro hscale
  replace h : x.toModel.unpack.isFinite = true := h
  rw [unpack_eq] at h
  simp only [hscale, if_true] at h
  split at h <;> cases h

theorem canonical_ofFloat (hscale : x.toBits.toNat % signUnit / scaleUnit ≠ 2047)
    (hzero : x.toBits.toNat % signUnit ≠ 0) : (Binary.ofFloat x).Canonical := by
  have hbits : x.toBits.toNat % signUnit < signUnit := Nat.mod_lt _ (by decide)
  by_cases hleast : x.toBits.toNat % signUnit / scaleUnit = 0
  · rw [ofFloat_least hleast]
    simp only [signUnit, scaleUnit] at *
    constructor <;> simp [scaleUnit] <;> omega
  · rw [ofFloat_full hleast]
    simp only [signUnit, scaleUnit] at *
    constructor <;> simp [scaleUnit] <;> omega

/-- The pattern of a positive double, put together from significand and exponent. -/
theorem pattern_eq (x : Float) : ((x.toBits.toNat % signUnit : ℕ) : ℤ) =
    ((Binary.ofFloat x).exponent + 1074) * scaleUnit + (Binary.ofFloat x).significand := by
  by_cases hleast : x.toBits.toNat % signUnit / scaleUnit = 0
  · rw [ofFloat_least hleast]
    simp only [scaleUnit] at *
    omega
  · rw [ofFloat_full hleast]
    simp only [scaleUnit] at *
    omega

theorem eq_of_toBits_eq {y : Float} (h : x.toBits = y.toBits) : x = y := by
  obtain ⟨⟨xbits, xvalid⟩⟩ := x
  obtain ⟨⟨ybits, yvalid⟩⟩ := y
  obtain rfl : xbits = ybits := h
  rfl

/-- Sign, significand and exponent make the double. -/
theorem eq_of_unpack_eq_finite {y : Float} {s : Sign} {m : ℕ} {e : ℤ} {hpos : 0 < m}
    (hx : x.toModel.unpack = .finite s m e hpos) (hy : y.toModel.unpack = .finite s m e hpos) :
    x = y := by
  obtain ⟨-, -, hsx, hmx, hex⟩ := unpack_eq_finite_iff.mp hx
  obtain ⟨-, -, hsy, hmy, hey⟩ := unpack_eq_finite_iff.mp hy
  have hbits : x.toBits.toNat % signUnit = y.toBits.toNat % signUnit := by
    have hpattern : ((x.toBits.toNat % signUnit : ℕ) : ℤ) = (y.toBits.toNat % signUnit : ℕ) := by
      rw [pattern_eq x, pattern_eq y, ← hmx, ← hmy, ← hex, ← hey]
    exact_mod_cast hpattern
  have hsigns : x.toBits.toNat / signUnit = y.toBits.toNat / signUnit := by
    have hxlt := x.toBits.toNat_lt
    have hylt := y.toBits.toNat_lt
    have hsign : signOf x = signOf y := hsx.symm.trans hsy
    unfold signOf at hsign
    split at hsign <;> split at hsign <;> simp only [signUnit] at * <;> first | omega | cases hsign
  exact eq_of_toBits_eq (UInt64.toNat_inj.mp (by
    rw [← Nat.div_add_mod x.toBits.toNat signUnit, hsigns, hbits, Nat.div_add_mod]))

/-! ## Packing -/

theorem unpackSign_packComponents (s : Sign) (v : BitVec 11) (w : BitVec 52) :
    Sign.ofBitVec (unpackSign (packComponents Format.binary64 s v w)) = s := by
  have htop : unpackSign (packComponents Format.binary64 s v w) = s.toBitVec := by
    rw [unpackSign, packComponents, BitVec.extractLsb, BitVec.extractLsb'_append_eq_of_le (by decide),
      BitVec.extractLsb'_append_eq_of_le (by decide)]
    cases s <;> rfl
  rw [htop]
  cases s <;> rfl

/-- A number of 53 bits in the range of doubles is packed as it is. -/
theorem unpack_pack {s : Sign} {m : ℕ} {e : ℤ} {hpos : 0 < m} (hlow : scaleUnit ≤ m)
    (hhigh : m < 2 * scaleUnit) (helow : -1074 ≤ e) (hehigh : e ≤ 971) :
    (Float.Model.pack (.finite s m e hpos)).unpack = .finite s m e hpos := by
  have hlog : m.log2 = 52 := (Nat.log2_eq_iff hpos.ne').mpr ⟨hlow, hhigh⟩
  have hbiased : (e + (1023 : ℕ) + (52 : ℕ)).toNat = (e + 1075).toNat := by omega
  have hpack : UnpackedFloat.pack Format.binary64 (.finite s m e hpos) =
      packComponents Format.binary64 s (BitVec.ofNat 11 (e + 1075).toNat) (BitVec.ofNat 52 m) := by
    show (if 2 ^ 11 ≤ (e + (1023 : ℕ) + (52 : ℕ)).toNat + 1 then _ else
      if m.log2 + 1 = 53 then packComponents Format.binary64 s
        (BitVec.ofNat 11 (e + (1023 : ℕ) + (52 : ℕ)).toNat) (BitVec.ofNat 52 m) else _) = _
    rw [hlog, hbiased, if_neg (by omega), if_pos rfl]
  have hscale : (BitVec.ofNat 11 (e + 1075).toNat).toNat = (e + 1075).toNat := by
    rw [BitVec.toNat_ofNat]
    omega
  have hnot : BitVec.ofNat 11 (e + 1075).toNat ≠ -1#11 := by
    intro h
    have := congrArg BitVec.toNat h
    rw [hscale] at this
    have : (e + 1075).toNat = 2047 := this
    omega
  have hnot0 : BitVec.ofNat 11 (e + 1075).toNat ≠ 0#11 := by
    intro h
    have := congrArg BitVec.toNat h
    rw [hscale] at this
    have : (e + 1075).toNat = 0 := this
    omega
  have hm : (1#1 ++ BitVec.ofNat 52 m).toNat = m := by
    rw [toNat_implicitBit, BitVec.toNat_ofNat]
    simp only [scaleUnit] at *
    omega
  show UnpackedFloat.unpack Format.binary64 (UnpackedFloat.pack Format.binary64 _) = _
  rw [hpack, UnpackedFloat.unpack]
  simp only [unpackExponent_packComponents, unpackMantissa_packComponents, unpackSign_packComponents,
    hnot, hnot0, if_false, hm, hscale]
  congr 1
  show ((e + 1075).toNat : ℤ) - ((1023 : ℕ) + (52 : ℕ)) = e
  omega

end

/-! ## The bits that are dropped -/

/-- A rational lies where a significand and its accuracy say: at the significand, below, at or above
the middle between it and the next. -/
def Lies (q : ℚ) (m : ℕ) : Accuracy → Prop
  | .exact => q = m
  | .inexact .lt => m < q ∧ q < m + 1 / 2
  | .inexact .eq => q = m + 1 / 2
  | .inexact .gt => m + 1 / 2 < q ∧ q < m + 1

section

variable {q : ℚ} {m : ℕ} {a : Accuracy} {em : ExtendedMantissa}

theorem Lies.between (h : Lies q m a) : (m : ℚ) ≤ q ∧ q < m + 1 := by
  rcases a with _ | o
  · rw [show q = m from h]
    exact ⟨le_rfl, by linarith⟩
  · rcases o
    · exact ⟨h.1.le, by linarith [h.2]⟩
    · rw [show q = m + 1 / 2 from h]
      exact ⟨by linarith, by linarith⟩
    · exact ⟨by linarith [h.1], h.2⟩

theorem Lies.nearest (h : Lies q m a) : Nearest q (a.roundToNearestEven m) := by
  rcases a with _ | o
  · rw [show q = m from h]
    exact nearest_natCast m
  · rcases o
    · left
      rw [Accuracy.roundToNearestEven, abs_lt]
      constructor <;> linarith [h.1, h.2]
    · right
      rw [show q = m + 1 / 2 from h, Accuracy.roundToNearestEven]
      rcases Nat.mod_two_eq_zero_or_one m with heven | hodd
      · rw [heven]
        exact ⟨by norm_num, by omega⟩
      · rw [hodd]
        push_cast
        exact ⟨by norm_num [abs_of_neg], by omega⟩
    · left
      rw [Accuracy.roundToNearestEven, abs_lt]
      push_cast
      constructor <;> linarith [h.1, h.2]

/-- Dropping one more bit. -/
theorem Lies.shiftRightOne (h : Lies q em.mantissa em.accuracy) :
    Lies (q / 2) em.shiftRightOne.mantissa em.shiftRightOne.accuracy := by
  obtain ⟨m, r, s⟩ := em
  have hhalf : (m : ℚ) = 2 * (m / 2 : ℕ) + (m % 2 : ℕ) := by
    exact_mod_cast (Nat.div_add_mod m 2).symm
  rcases Nat.mod_two_eq_zero_or_one m with hbit | hbit <;> rw [hbit] at hhalf <;>
    push_cast at hhalf <;> cases r <;> cases s <;>
    simp only [ExtendedMantissa.shiftRightOne, Lies, ExtendedMantissa.accuracy, hbit, bne_self_eq_false,
      show ((1 : ℕ) != 0) = true from rfl, Bool.or_self, Bool.or_true, Bool.or_false] at h ⊢ <;>
    first | linarith | constructor <;> linarith

theorem Lies.shiftRight (h : Lies q em.mantissa em.accuracy) (k : ℕ) :
    Lies (q / 2 ^ k) (em >>> k).mantissa (em >>> k).accuracy := by
  induction k with
  | zero =>
      rw [pow_zero, div_one]
      exact h
  | succ k ih =>
      rw [pow_succ, ← div_div]
      exact ih.shiftRightOne

theorem Lies.ofMantissaAndAccuracy (h : Lies q m a) :
    Lies q (ExtendedMantissa.ofMantissaAndAccuracy m a).mantissa
      (ExtendedMantissa.ofMantissaAndAccuracy m a).accuracy := by
  rcases a with _ | o
  · exact h
  · cases o <;> exact h

end

/-- A significand with `k` bits too many is shifted by that many. -/
theorem shiftToTargetExponent_eq {m k : ℕ} {e : ℤ} (hm : m.log2 = 52 + k) (he : -1074 ≤ e)
    (a : Accuracy) : shiftToTargetExponent Format.binary64 m e a =
      (ExtendedMantissa.ofMantissaAndAccuracy m a >>> k, e + k) := by
  have htarget : Format.binary64.targetExponent (totalExponent m e) = e + k := by
    rw [Format.targetExponent, totalExponent, hm]
    show max (((52 + k : ℕ) : ℤ) + 1 + e - (53 : ℕ)) (-1074) = e + k
    omega
  have hshift : (e + k - e).toNat = k := by omega
  rw [shiftToTargetExponent, htarget, shiftToExponent, hshift]

theorem roundWithAccuracy_eq {m : ℕ} {e f g : ℤ} {a : Accuracy} {em em' : ExtendedMantissa}
    (s : Sign) (hfirst : shiftToTargetExponent Format.binary64 m e a = (em, f))
    (hsecond : shiftToTargetExponent Format.binary64 em.roundedMantissa f .exact = (em', g))
    (hpos : 0 < em'.mantissa) :
    roundWithAccuracy Format.binary64 s m e a = .finite s em'.mantissa g hpos := by
  simp only [roundWithAccuracy, hfirst, hsecond]
  exact dif_neg hpos.ne'

/-- **The last step of an operation rounds.** -/
theorem roundWithAccuracy_rounds {s : Sign} {m : ℕ} {e : ℤ} {a : Accuracy} {q : ℚ}
    (hm : 2 ^ 52 ≤ m) (he : -1074 ≤ e) (hq : Lies q m a) :
    ∃ n f hpos, roundWithAccuracy Format.binary64 s m e a = .finite s n f hpos ∧
      2 ^ 52 ≤ n ∧ n < 2 ^ 53 ∧ e ≤ f ∧ Rounds (q * 2 ^ e) (n * 2 ^ f) := by
  have hne : m ≠ 0 := by omega
  obtain ⟨k, hk⟩ : ∃ k, m.log2 = 52 + k := Nat.exists_eq_add_of_le ((Nat.le_log2 hne).mpr hm)
  obtain ⟨hlow, hhigh⟩ := (Nat.log2_eq_iff hne).mp hk
  have hpow : (0 : ℚ) < 2 ^ k := by positivity
  set em := ExtendedMantissa.ofMantissaAndAccuracy m a >>> k with hem
  have hlies : Lies (q / 2 ^ k) em.mantissa em.accuracy := hq.ofMantissaAndAccuracy.shiftRight k
  have hbits : 2 ^ 52 ≤ q / 2 ^ k ∧ q / 2 ^ k < 2 ^ 53 := by
    have hlow' : (2 : ℚ) ^ 52 * 2 ^ k ≤ m := by
      rw [← pow_add]
      exact_mod_cast hlow
    have hhigh' : (m : ℚ) + 1 ≤ 2 ^ 53 * 2 ^ k := by
      rw [← pow_add, show 53 + k = 52 + k + 1 by omega]
      exact_mod_cast hhigh
    rw [le_div_iff₀ hpow, div_lt_iff₀ hpow]
    exact ⟨hlow'.trans hq.between.1, hq.between.2.trans_le hhigh'⟩
  set n := em.roundedMantissa with hn
  have hnearest : Nearest (q / 2 ^ k) n := hlies.nearest
  have hnlow : 2 ^ 52 ≤ n := hnearest.le_of_ge (by exact_mod_cast hbits.1)
  have hnhigh : n ≤ 2 ^ 53 := hnearest.le_of_le (by exact_mod_cast hbits.2.le)
  have hrounds : Rounds (q * 2 ^ e) (n * 2 ^ (e + k)) := by
    have hvalue : q / 2 ^ k * 2 ^ (e + k) = q * 2 ^ e := by
      rw [pow_two_add, zpow_natCast]
      field_simp
    rw [← hvalue]
    exact Rounds.intro hbits.1 hbits.2 hnearest
  have hfirst := shiftToTargetExponent_eq hk he a
  have he' : -1074 ≤ e + (k : ℤ) := by omega
  -- Rounding may have carried into one more bit, which the second shift drops.
  rcases hnhigh.lt_or_eq with hlt | heq
  · have hlog : n.log2 = 52 + 0 := (Nat.log2_eq_iff (by omega)).mpr ⟨hnlow, hlt⟩
    have hsecond := shiftToTargetExponent_eq hlog he' .exact
    refine ⟨n, e + k, by omega, ?_, hnlow, hlt, by omega, hrounds⟩
    rw [roundWithAccuracy_eq s hfirst hsecond (show 0 < n by omega)]
    exact congrArg (fun f => UnpackedFloat.finite s n f _) (add_zero _)
  · have hlog : n.log2 = 52 + 1 := by rw [heq, Nat.log2_two_pow]
    have hsecond := shiftToTargetExponent_eq hlog he' .exact
    have hhalf : n / 2 = 2 ^ 52 := by omega
    refine ⟨n / 2, e + k + 1, by omega, ?_, hhalf.ge, by omega, by omega, ?_⟩
    · exact roundWithAccuracy_eq s hfirst hsecond (show 0 < n / 2 by omega)
    · have hcarried : ((n / 2 : ℕ) : ℚ) * 2 ^ (e + (k : ℤ) + 1) = n * 2 ^ (e + (k : ℤ)) := by
        rw [hhalf, heq, pow_two_add _ 1]
        norm_num
        ring
      rwa [hcarried]

/-! ## Doubles and what they hold -/

/-- A positive double with all 53 bits, and its value. -/
def Holds (x : Float) (q : ℚ) : Prop :=
  ∃ m e hpos, x.toModel.unpack = .finite .positive m e hpos ∧ 2 ^ 52 ≤ m ∧ q = m * 2 ^ e

/-- The double that a rational rounds to, as long as there is one. -/
def Becomes (x : Float) (q : ℚ) : Prop :=
  ∃ r, Rounds q r ∧ (r < 2 ^ (1024 : ℤ) → Holds x r)

theorem bounds_of_unpack {x : Float} {s : Sign} {m : ℕ} {e : ℤ} {hpos : 0 < m}
    (h : x.toModel.unpack = .finite s m e hpos) : m < 2 ^ 53 ∧ -1074 ≤ e ∧ e ≤ 971 := by
  obtain ⟨hscale, hzero, -, rfl, rfl⟩ := unpack_eq_finite_iff.mp h
  have hcanonical := canonical_ofFloat hscale hzero
  exact ⟨hcanonical.bounded, hcanonical.low, hcanonical.high⟩

theorem Holds.isInf {x : Float} {q : ℚ} (h : Holds x q) : x.isInf = false := by
  obtain ⟨m, e, hpos, hx, -⟩ := h
  show x.toModel.unpack.isInf = false
  rw [hx]
  rfl

/-- There is one double with a value. -/
theorem Holds.unique {x y : Float} {q : ℚ} (hx : Holds x q) (hy : Holds y q) : x = y := by
  obtain ⟨m, e, hpos, hx, hm, rfl⟩ := hx
  obtain ⟨n, f, hpos', hy, hn, heq⟩ := hy
  have hmhigh := (bounds_of_unpack hx).1
  have hnhigh := (bounds_of_unpack hy).1
  have he : InBinade (m * 2 ^ e) e :=
    inBinade_mul_pow (by exact_mod_cast hm) (by exact_mod_cast hmhigh)
  have hf : InBinade (n * 2 ^ f) f :=
    inBinade_mul_pow (by exact_mod_cast hn) (by exact_mod_cast hnhigh)
  obtain rfl := he.unique (heq ▸ hf)
  have hmn : (m : ℚ) = n := mul_right_cancel₀ (pow_two_pos e).ne' heq
  obtain rfl : m = n := by exact_mod_cast hmn
  exact eq_of_unpack_eq_finite hx hy

/-- What the last step of an operation leaves in a double. -/
theorem becomes_of_pack {x : Float} {m : ℕ} {e : ℤ} {a : Accuracy} {q : ℚ} (hm : 2 ^ 52 ≤ m)
    (he : -1074 ≤ e) (hq : Lies q m a)
    (hx : x.toModel = Float.Model.pack (roundWithAccuracy Format.binary64 .positive m e a)) :
    Becomes x (q * 2 ^ e) := by
  obtain ⟨n, f, hpos, hround, hlow, hhigh, hef, hrounds⟩ :=
    @roundWithAccuracy_rounds .positive m e a q hm he hq
  refine ⟨n * 2 ^ f, hrounds, fun hlt => ⟨n, f, hpos, ?_, hlow, rfl⟩⟩
  have hbinade : InBinade (n * 2 ^ f) f :=
    inBinade_mul_pow (by exact_mod_cast hlow) (by exact_mod_cast hhigh)
  have hf : f + 52 < 1024 := pow_two_lt_iff.mp (hbinade.1.trans_lt hlt)
  rw [hx, hround]
  exact unpack_pack hlow hhigh (by omega) (by omega)

/-- A double that is large enough has its last bit far enough up. -/
theorem low_of_pow_le {m : ℕ} {e j : ℤ} (hm : m < 2 ^ 53) (h : (2 : ℚ) ^ j ≤ m * 2 ^ e) :
    j - 52 ≤ e := by
  have hlt : (2 : ℚ) ^ j < 2 ^ (53 + e) := by
    rw [pow_two_add]
    exact h.trans_lt (mul_lt_mul_of_pos_right (by exact_mod_cast hm) (pow_two_pos e))
  have := pow_two_lt_iff.mp hlt
  omega

theorem low_of_one_le {m : ℕ} {e : ℤ} (hm : m < 2 ^ 53) (h : (1 : ℚ) ≤ m * 2 ^ e) : -52 ≤ e := by
  rw [← zpow_zero 2] at h
  exact low_of_pow_le hm h

/-- A product of doubles is rounded once. -/
theorem becomes_mul {x y : Float} {a b : ℚ} (hx : Holds x a) (hy : Holds y b) (ha : 1 ≤ a)
    (hb : 1 ≤ b) : Becomes (x * y) (a * b) := by
  obtain ⟨m, e, hpos, hx, hm, rfl⟩ := hx
  obtain ⟨n, f, hpos', hy, hn, rfl⟩ := hy
  have he := low_of_one_le (bounds_of_unpack hx).1 ha
  have hf := low_of_one_le (bounds_of_unpack hy).1 hb
  have hvalue : (m : ℚ) * 2 ^ e * (n * 2 ^ f) = (m * n : ℕ) * 2 ^ (e + f) := by
    rw [pow_two_add, Nat.cast_mul]
    ring
  rw [hvalue]
  refine becomes_of_pack (a := .exact) (hm.trans (Nat.le_mul_of_pos_right m hpos')) (by omega) rfl ?_
  show Float.Model.pack (UnpackedFloat.mul Format.binary64 x.toModel.unpack y.toModel.unpack) = _
  rw [hx, hy]
  rfl

/-- The integral part of a quotient, with the accuracy that the remainder gives. -/
theorem lies_div (m : ℕ) {d : ℕ} (hd : 0 < d) :
    Lies (m / d) (m / d : ℕ) (accuracyOfFraction (m % d) d) := by
  have hpos : (0 : ℚ) < d := by exact_mod_cast hd
  have hvalue : (m : ℚ) / d = (m / d : ℕ) + (m % d : ℕ) / d := by
    rw [div_eq_iff hpos.ne', add_mul, div_mul_cancel₀ _ hpos.ne']
    exact_mod_cast (Nat.div_add_mod' m d).symm
  have hlt : ((m % d : ℕ) : ℚ) < d := by exact_mod_cast Nat.mod_lt m hd
  generalize m % d = rest at *
  rw [hvalue, accuracyOfFraction]
  split
  · next hzero =>
      rw [hzero]
      show (_ : ℚ) = _
      simp
  · next hne =>
      have hrest : (0 : ℚ) < rest := by exact_mod_cast Nat.pos_of_ne_zero hne
      have hfraction : (0 : ℚ) < rest / d := div_pos hrest hpos
      have hone : (rest : ℚ) / d < 1 := (div_lt_one hpos).mpr hlt
      rcases lt_trichotomy (2 * rest) d with h | h | h
      · rw [Nat.compare_eq_lt.mpr h]
        have hhalf : (rest : ℚ) / d < 1 / 2 := by
          rw [div_lt_div_iff₀ hpos (by norm_num)]
          exact_mod_cast (by omega : rest * 2 < 1 * d)
        constructor <;> linarith
      · rw [Nat.compare_eq_eq.mpr h]
        have hhalf : (rest : ℚ) / d = 1 / 2 := by
          rw [div_eq_div_iff hpos.ne' (by norm_num)]
          exact_mod_cast (by omega : rest * 2 = 1 * d)
        show (_ : ℚ) = _
        rw [hhalf]
      · rw [Nat.compare_eq_gt.mpr h]
        have hhalf : 1 / 2 < (rest : ℚ) / d := by
          rw [div_lt_div_iff₀ (by norm_num) hpos]
          exact_mod_cast (by omega : 1 * d < rest * 2)
        constructor <;> linarith

/-- A quotient of doubles is rounded once. -/
theorem becomes_div {x y : Float} {a b : ℚ} (hx : Holds x a) (hy : Holds y b) (ha : 1 ≤ a)
    (hb : b < 2 ^ 900) : Becomes (x / y) (a / b) := by
  obtain ⟨m, e, hpos, hx, hm, rfl⟩ := hx
  obtain ⟨n, f, hpos', hy, hn, rfl⟩ := hy
  have hmhigh := (bounds_of_unpack hx).1
  have hnhigh := (bounds_of_unpack hy).1
  have he := low_of_one_le hmhigh ha
  have hf : f + 52 < 900 := by
    have hbinade : InBinade (n * 2 ^ f) f :=
      inBinade_mul_pow (by exact_mod_cast hn) (by exact_mod_cast hnhigh)
    exact pow_two_lt_iff.mp (hbinade.1.trans_lt (by exact_mod_cast hb))
  have hmlog : m.log2 = 52 := (Nat.log2_eq_iff hpos.ne').mpr ⟨hm, hmhigh⟩
  have hnlog : n.log2 = 52 := (Nat.log2_eq_iff hpos'.ne').mpr ⟨hn, hnhigh⟩
  have hcore : divCore Format.binary64 m e n f =
      (m * 2 ^ 53 / n, e - f - 53, accuracyOfFraction (m * 2 ^ 53 % n) n) := by
    have htarget : Format.binary64.targetExponent (totalExponent m e - totalExponent n f) =
        e - f - 53 := by
      rw [totalExponent, totalExponent, hmlog, hnlog, Format.targetExponent]
      show max (((52 : ℕ) : ℤ) + 1 + e - (((52 : ℕ) : ℤ) + 1 + f) - (53 : ℕ)) (-1074) = e - f - 53
      omega
    have hmin : min (e - f) (e - f - 53) = e - f - 53 := by omega
    have hshift : (e - f - (e - f - 53)).toNat = 53 := by omega
    simp only [divCore, htarget, hmin, hshift, Nat.shiftLeft_eq]
  have hvalue : (m : ℚ) * 2 ^ e / (n * 2 ^ f) = (m * 2 ^ 53 : ℕ) / n * 2 ^ (e - f - 53) := by
    have hn0 : (n : ℚ) ≠ 0 := by exact_mod_cast hpos'.ne'
    have hf0 := (pow_two_pos f).ne'
    rw [zpow_sub₀ (by norm_num), zpow_sub₀ (by norm_num), Nat.cast_mul]
    field_simp
    norm_num
  have hquotient : 2 ^ 52 ≤ m * 2 ^ 53 / n := by
    rw [Nat.le_div_iff_mul_le hpos']
    calc 2 ^ 52 * n ≤ 2 ^ 52 * 2 ^ 53 := Nat.mul_le_mul_left _ hnhigh.le
      _ ≤ m * 2 ^ 53 := Nat.mul_le_mul_right _ hm
  rw [hvalue]
  refine becomes_of_pack hquotient (by omega) (lies_div (m * 2 ^ 53) hpos') ?_
  show Float.Model.pack (UnpackedFloat.div Format.binary64 x.toModel.unpack y.toModel.unpack) = _
  rw [hx, hy]
  simp only [UnpackedFloat.div, hcore]
  rfl

/-- A natural number is rounded to a double. -/
theorem becomes_toFloat {n : ℕ} (hpos : 0 < n) (hn : n < 2 ^ 64) :
    Becomes n.toUInt64.toFloat n := by
  set k := 52 - n.log2 with hk
  have hlog : n.log2 < 64 := (Nat.log2_lt hpos.ne').mpr hn
  have hshift : decreaseExponent n 0 (Format.binary64.targetExponent (totalExponent n 0)) =
      (n * 2 ^ k, -(k : ℤ)) := by
    have hamount : (0 - Format.binary64.targetExponent (totalExponent n 0)).toNat = k := by
      rw [Format.targetExponent, totalExponent]
      show (0 - max (((n.log2 : ℕ) : ℤ) + 1 + 0 - (53 : ℕ)) (-1074)).toNat = k
      omega
    rw [decreaseExponent, hamount, Nat.shiftLeft_eq, zero_sub]
  have hvalue : (n : ℚ) = (n * 2 ^ k : ℕ) * 2 ^ (-(k : ℤ)) := by
    rw [Nat.cast_mul, mul_assoc, zpow_neg, zpow_natCast]
    push_cast
    rw [mul_inv_cancel₀ (by positivity), mul_one]
  have hlow : 2 ^ 52 ≤ n * 2 ^ k := by
    calc 2 ^ 52 ≤ 2 ^ (n.log2 + k) := Nat.pow_le_pow_right (by decide) (by omega)
      _ = 2 ^ n.log2 * 2 ^ k := Nat.pow_add _ _ _
      _ ≤ n * 2 ^ k := Nat.mul_le_mul_right _ (Nat.log2_self_le hpos.ne')
  rw [hvalue]
  refine becomes_of_pack (a := .exact) hlow (by omega) rfl ?_
  have hword : n.toUInt64.toNat = n := Nat.mod_eq_of_lt hn
  show Float.Model.pack (UnpackedFloat.normalize Format.binary64 (n.toUInt64.toNat : ℤ) 0 .positive) = _
  rw [hword, UnpackedFloat.normalize, Int.compare_eq_gt.mpr (by omega)]
  show Float.Model.pack (UnpackedFloat.round Format.binary64 .positive n 0) = _
  simp only [UnpackedFloat.round, hshift]

/-- The first powers of ten are kept. -/
theorem holds_power {k : ℕ} (hk : k ≤ 22) : Holds (Float.ofScientific 1 false k) (10 ^ k) := by
  have hpatterns : ∀ k < 23, let x := Float.ofScientific 1 false k
      let b := Binary.ofFloat x
      x.toBits.toNat % signUnit / scaleUnit ≠ 2047 ∧ x.toBits.toNat % signUnit ≠ 0 ∧
        x.toBits.toNat / signUnit = 0 ∧ 2 ^ 52 ≤ b.significand ∧
        b.significand * 2 ^ b.exponent.toNat = 10 ^ k * 2 ^ (-b.exponent).toNat := by
    decide +kernel
  obtain ⟨hscale, hzero, hsign, hlow, hvalue⟩ := hpatterns k (by omega)
  set b := Binary.ofFloat (Float.ofScientific 1 false k) with hb
  refine ⟨b.significand, b.exponent, by omega,
    unpack_eq_finite_iff.mpr ⟨hscale, hzero, (if_pos hsign).symm, rfl, rfl⟩, hlow, ?_⟩
  have hvalue' : (b.significand : ℚ) * 2 ^ b.exponent.toNat = 10 ^ k * 2 ^ (-b.exponent).toNat := by
    exact_mod_cast hvalue
  have hexponent : b.exponent = b.exponent.toNat - (-b.exponent).toNat := by omega
  rw [hexponent, zpow_sub₀ (by norm_num), zpow_natCast, zpow_natCast, mul_div_assoc', hvalue',
    mul_div_cancel_right₀ _ (by positivity)]

/-- Every power of ten in the table is rounded. -/
theorem becomes_power {k : ℕ} (hk : k ≤ 308) : Becomes (Float.ofScientific 1 false k) (10 ^ k) := by
  by_cases hsmall : k ≤ 22
  · have hpow : (10 : ℚ) ^ k = (5 ^ k : ℕ) * 2 ^ (k : ℤ) := by
      rw [zpow_natCast, Nat.cast_pow, ← mul_pow]
      norm_num
    have hfive : 5 ^ k < 2 ^ 53 := lt_of_le_of_lt (Nat.pow_le_pow_right (by decide) hsmall) (by decide)
    have hrounds := Rounds.refl (Nat.pow_pos (n := k) (by decide : 0 < 5)) hfive k
    rw [← hpow] at hrounds
    exact ⟨10 ^ k, hrounds, fun _ => holds_power hsmall⟩
  · have hslow : Float.ofScientific 1 false k = .ofModel (Float.Model.ofScientific 1 k) := by
      unfold Float.ofScientific
      exact dif_neg fun h => hsmall h.2
    have hvalue : (10 : ℚ) ^ k = (2 ^ 53 * 10 ^ k : ℕ) * 2 ^ (-53 : ℤ) := by
      push_cast
      rw [zpow_neg]
      norm_num
      ring
    rw [hvalue]
    refine becomes_of_pack (a := .exact) ?_ (by decide) rfl ?_
    · calc 2 ^ 52 ≤ 2 ^ 53 * 1 := by decide
        _ ≤ 2 ^ 53 * 10 ^ k := Nat.mul_le_mul_left _ (Nat.pow_pos (by decide))
    · rw [hslow]
      show Float.Model.pack (UnpackedFloat.ofScientific Format.binary64 1 k) = _
      unfold UnpackedFloat.ofScientific
      rw [dif_neg (by decide), if_neg (show ¬(k : ℤ) > 2 ^ 11 by omega),
        if_neg (show ¬(k : ℤ) < -(2 ^ 11 + (Nat.log2 1 : ℕ)) by omega), if_pos (Int.natCast_nonneg k)]
      rfl

end LiveDiagram.Decimal
