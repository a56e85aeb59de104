import LiveDiagram.Proofs.Decimal.Shortest
import LiveDiagram.Proofs.Json.ReadBack

/-!
# Written doubles read back

The numeral of a double is digits with a point among them or an exponent behind them.  However it is
laid out, the reader takes all the digits into its significand, since there are never more than fit,
and counts the places behind the point off the exponent.  So it comes to the digits and the exponent
that were chosen, except that a double written as a whole number brings the zeros before the point
and the one behind it into the significand.

What the reader then makes of significand and exponent need not be the double that was written
(`reread`): it is one product or quotient of doubles, which is rounded after the significand and the
power of ten have been.

## Main results

* `number_float`: the numeral of a finite double is read, whatever stands behind it.
-/

namespace LiveDiagram

namespace Decimal

open LiveDiagram.Ascii

/-- What a layout spells: the digits of a whole number come with its zeros and with the zero behind
its point. -/
def Shortest.spelled (s : Shortest) : Json.Scientific :=
  if 0 ≤ s.exponent ∧ (numeral s.digits).length + s.exponent ≤ 16 then
    ⟨s.digits * 10 ^ (s.exponent.toNat + 1), -1⟩
  else ⟨s.digits, s.exponent⟩

/-- What the numeral of a double spells, behind its sign. -/
def spelled (x : Float) : Json.Scientific :=
  if x.toBits.toNat % signUnit = 0 then ⟨0, -1⟩ else (Binary.ofFloat x).shortest.spelled

/-- Whether a double has a minus sign. -/
def isNegative (x : Float) : Bool :=
  x.toBits.toNat / signUnit = 1

theorem lt_pow_length (n : ℕ) : n < 10 ^ (numeral n).length := by
  fun_induction numeral n with
  | case1 n h => simpa using h
  | case2 n h ih =>
      rw [List.length_append, List.length_singleton, pow_succ]
      omega

theorem length_numeral_le {n k : ℕ} (hk : 0 < k) (hn : n < 10 ^ k) : (numeral n).length ≤ k := by
  induction k generalizing n with
  | zero => omega
  | succ k ih =>
      rw [numeral]
      split
      · exact hk
      · next hge =>
          have hpos : 0 < k := by
            rcases Nat.eq_zero_or_pos k with rfl | hpos
            · omega
            · exact hpos
          have hdiv : n / 10 < 10 ^ k := by
            rw [pow_succ] at hn
            omega
          rw [List.length_append, List.length_singleton]
          exact Nat.succ_le_succ (ih hpos hdiv)

theorem valueFrom_zeros (n k : ℕ) : valueFrom n (List.replicate k zero) = n * 10 ^ k := by
  induction k generalizing n with
  | zero => simp [valueFrom]
  | succ k ih =>
      rw [List.replicate_succ]
      show valueFrom (10 * n + 0) _ = _
      rw [ih, pow_succ]
      ring

end Decimal

namespace Json

open LiveDiagram.Ascii

/-- A fraction is taken into the significand. -/
theorem fractionPart_digits (negative : Bool) {n : Scientific} {f rest : Bytes}
    (hdigits : ∀ d ∈ f, isDigit d = true) (hne : f ≠ [])
    (hfits : Decimal.valueFrom n.significand f < UInt64.size) (hrest : digitAhead rest = false) :
    fractionPart negative n (f ++ rest) =
      afterFraction negative ⟨Decimal.valueFrom n.significand f, n.exponent - f.length⟩ rest := by
  have htaken := takeDigits_append n.significand 0 hdigits hfits hrest
  obtain ⟨d, ds, rfl⟩ := List.exists_cons_of_ne_nil hne
  have hd : isDigit d = true := hdigits d List.mem_cons_self
  rw [List.cons_append] at htaken ⊢
  rw [fractionPart, if_pos hd, htaken, zero_add]
  show afterFraction negative _ (pastDigits rest) = _
  rw [pastDigits_of_digitAhead hrest]

theorem exponentDigits_append (m : ℕ) {digits rest : Bytes}
    (hdigits : ∀ d ∈ digits, isDigit d = true)
    (hfits : Decimal.valueFrom m digits < 0x80000000) (hrest : digitAhead rest = false) :
    exponentDigits m (digits ++ rest) = .inr (Decimal.valueFrom m digits, rest) := by
  induction digits generalizing m with
  | nil =>
      cases rest with
      | nil => rfl
      | cons b rest =>
          have hb : isDigit b = false := hrest
          simp [exponentDigits, hb, Decimal.valueFrom]
  | cons d ds ih =>
      have hd : isDigit d = true := hdigits d List.mem_cons_self
      have hnext : 10 * m + digitValue d < 0x80000000 :=
        Nat.lt_of_le_of_lt (Decimal.le_valueFrom (10 * m + digitValue d) ds) hfits
      rw [List.cons_append, exponentDigits, if_pos hd, if_pos hnext,
        ih _ (fun b hb => hdigits b (List.mem_cons_of_mem d hb)) hfits]
      rfl

/-- An exponent with its sign is added. -/
theorem exponentPart_numeral (negative down : Bool) {n : Scientific} {e : ℕ} (he : e < 0x80000000)
    {rest : Bytes} (hrest : endsNumeral rest = true) :
    exponentPart negative n ((if down then minus else plus) :: (Decimal.numeral e ++ rest)) =
      inexact negative ⟨n.significand, if down then n.exponent - e else n.exponent + e⟩ rest := by
  have hdigits : ∀ d ∈ Decimal.numeral e, isDigit d = true := fun d => Decimal.isDigit_of_mem_numeral
  have hvalue : Decimal.valueFrom 0 (Decimal.numeral e) = e := Decimal.value_numeral e
  have htaken := exponentDigits_append 0 hdigits (by rw [hvalue]; exact he)
    (digitAhead_of_endsNumeral hrest)
  obtain ⟨d, ds, hcons⟩ := List.exists_cons_of_ne_nil (Decimal.numeral_ne_nil e)
  have hd : isDigit d = true := hdigits d (hcons ▸ List.mem_cons_self)
  rw [hvalue, hcons, List.cons_append] at htaken
  rw [hcons, List.cons_append]
  cases down with
  | false =>
      rw [if_neg (by decide), exponentPart, if_pos rfl, exponentValue, if_pos hd, htaken]
  | true =>
      rw [if_pos rfl, exponentPart, if_neg (by decide), if_pos rfl, exponentValue, if_pos hd, htaken]

theorem afterFraction_of_endsNumeral (negative : Bool) (n : Scientific) {rest : Bytes}
    (hrest : endsNumeral rest = true) : afterFraction negative n rest = inexact negative n rest := by
  cases rest with
  | nil => rfl
  | cons b rest =>
      simp only [endsNumeral, Bool.not_eq_true', Bool.or_eq_false_iff] at hrest
      rw [afterFraction, hrest.2]
      rfl

/-! ## Layouts -/

theorem isDigit_zero : isDigit zero = true :=
  rfl

theorem leads_zero : Leads [zero] :=
  ⟨by simp [isDigit_zero], by simp, fun _ => rfl⟩

/-- The letter before an exponent. -/
theorem afterFraction_mark (negative : Bool) (n : Scientific) (rest : Bytes) :
    afterFraction negative n (0x65 :: rest) = exponentPart negative n rest :=
  rfl

theorem afterInteger_mark (negative : Bool) (m : ℕ) (rest : Bytes) :
    afterInteger negative m 0 (0x65 :: rest) = exponentPart negative ⟨m, 0⟩ rest :=
  rfl

/-- Digits, a point and digits. -/
theorem magnitude_point (negative : Bool) {w f rest : Bytes} (hw : Leads w)
    (hdigits : ∀ d ∈ f, isDigit d = true) (hne : f ≠ [])
    (hfits : Decimal.valueFrom (Decimal.value w) f < UInt64.size) (hrest : digitAhead rest = false) :
    magnitude negative (w ++ point :: (f ++ rest)) =
      afterFraction negative ⟨Decimal.valueFrom (Decimal.value w) f, -f.length⟩ rest := by
  rw [magnitude_digits negative hw (Nat.lt_of_le_of_lt (Decimal.le_valueFrom _ f) hfits) rfl,
    afterInteger, if_pos rfl, fractionPart_digits negative hdigits hne hfits hrest, Nat.cast_zero,
    zero_sub]

/-- The digits of a numeral, cut somewhere behind the first. -/
theorem leads_take {n k : ℕ} (hn : n ≠ 0) (hk : k ≠ 0) : Leads ((Decimal.numeral n).take k) := by
  have hhead : ((Decimal.numeral n).take k).head? = (Decimal.numeral n).head? := by
    cases Decimal.numeral n <;> cases k <;> simp_all
  refine ⟨fun d hd => Decimal.isDigit_of_mem_numeral (List.mem_of_mem_take hd), ?_, fun h => ?_⟩
  · rw [ne_eq, List.take_eq_nil_iff, not_or]
    exact ⟨hk, Decimal.numeral_ne_nil n⟩
  · rw [hhead] at h
    exact absurd h (Decimal.head?_numeral_ne_zero hn)

theorem valueFrom_take_drop (n k : ℕ) :
    Decimal.valueFrom (Decimal.value ((Decimal.numeral n).take k)) ((Decimal.numeral n).drop k) = n := by
  rw [Decimal.value, ← Decimal.valueFrom_append, List.take_append_drop]
  exact Decimal.value_numeral n

section

variable {n : ℕ} {rest : Bytes}

/-- A whole number with zeros behind its digits and one behind its point. -/
theorem magnitude_whole (negative : Bool) (hn : n ≠ 0) {k : ℕ} (hfits : n * 10 ^ (k + 1) < UInt64.size)
    (hrest : endsNumeral rest = true) :
    magnitude negative (Decimal.numeral n ++ List.replicate k zero ++ [point, zero] ++ rest) =
      inexact negative ⟨n * 10 ^ (k + 1), -1⟩ rest := by
  have hleads : Leads (Decimal.numeral n ++ List.replicate k zero) := by
    refine ⟨fun d hd => ?_, ?_, fun h => ?_⟩
    · rcases List.mem_append.mp hd with hd | hd
      · exact Decimal.isDigit_of_mem_numeral hd
      · rw [List.eq_of_mem_replicate hd]
        rfl
    · simp [Decimal.numeral_ne_nil]
    · rw [List.head?_append_of_ne_nil _ (Decimal.numeral_ne_nil n)] at h
      exact absurd h (Decimal.head?_numeral_ne_zero hn)
  have hvalue : Decimal.valueFrom (Decimal.value (Decimal.numeral n ++ List.replicate k zero)) [zero] =
      n * 10 ^ (k + 1) := by
    rw [Decimal.value, Decimal.valueFrom_append, ← Decimal.value, Decimal.value_numeral,
      Decimal.valueFrom_zeros]
    show 10 * (n * 10 ^ k) + 0 = _
    rw [pow_succ]
    ring
  have hread := magnitude_point negative hleads (f := [zero]) (by simp [isDigit_zero]) (by simp)
    (by rw [hvalue]; exact hfits) (digitAhead_of_endsNumeral hrest)
  rw [hvalue, afterFraction_of_endsNumeral negative _ hrest] at hread
  rw [List.append_assoc]
  exact hread

/-- Digits with a point among them. -/
theorem magnitude_inside (negative : Bool) (hn : n ≠ 0) (hfits : n < UInt64.size) {k : ℕ} (hk : k ≠ 0)
    (hlt : k < (Decimal.numeral n).length) (hrest : endsNumeral rest = true) :
    magnitude negative
        ((Decimal.numeral n).take k ++ [point] ++ (Decimal.numeral n).drop k ++ rest) =
      inexact negative ⟨n, k - (Decimal.numeral n).length⟩ rest := by
  have hdigits : ∀ d ∈ (Decimal.numeral n).drop k, isDigit d = true := fun d hd =>
    Decimal.isDigit_of_mem_numeral (List.mem_of_mem_drop hd)
  have hne : (Decimal.numeral n).drop k ≠ [] := by
    rw [ne_eq, List.drop_eq_nil_iff]
    omega
  have hread := magnitude_point negative (leads_take hn hk) hdigits hne
    (by rw [valueFrom_take_drop]; exact hfits) (digitAhead_of_endsNumeral hrest)
  rw [valueFrom_take_drop, afterFraction_of_endsNumeral negative _ hrest, List.length_drop,
    Nat.cast_sub hlt.le, neg_sub] at hread
  rw [List.append_assoc, List.append_assoc]
  exact hread

/-- Digits behind zeros, all of them behind the point. -/
theorem magnitude_ahead (negative : Bool) (hfits : n < UInt64.size) (k : ℕ)
    (hrest : endsNumeral rest = true) :
    magnitude negative ([zero, point] ++ List.replicate k zero ++ Decimal.numeral n ++ rest) =
      inexact negative ⟨n, -(k + (Decimal.numeral n).length)⟩ rest := by
  have hdigits : ∀ d ∈ List.replicate k zero ++ Decimal.numeral n, isDigit d = true := by
    intro d hd
    rcases List.mem_append.mp hd with hd | hd
    · rw [List.eq_of_mem_replicate hd]
      rfl
    · exact Decimal.isDigit_of_mem_numeral hd
  have hvalue : Decimal.valueFrom (Decimal.value [zero])
      (List.replicate k zero ++ Decimal.numeral n) = n := by
    rw [Decimal.valueFrom_append, Decimal.valueFrom_zeros]
    show Decimal.valueFrom (0 * 10 ^ k) _ = n
    rw [zero_mul]
    exact Decimal.value_numeral n
  have hread := magnitude_point negative leads_zero hdigits (by simp [Decimal.numeral_ne_nil])
    (by rw [hvalue]; exact hfits) (digitAhead_of_endsNumeral hrest)
  rw [hvalue, afterFraction_of_endsNumeral negative _ hrest, List.length_append,
    List.length_replicate, Nat.cast_add] at hread
  rw [List.append_assoc, List.append_assoc, ← List.append_assoc (List.replicate k zero)]
  exact hread

/-- One digit before the point, and an exponent. -/
theorem magnitude_exponent (negative down : Bool) (hn : n ≠ 0) (hfits : n < UInt64.size) {e : ℕ}
    (he : e < 0x80000000) (hrest : endsNumeral rest = true) :
    magnitude negative
        ((Decimal.numeral n).take 1 ++
          (if ((Decimal.numeral n).drop 1).isEmpty then [] else point :: (Decimal.numeral n).drop 1) ++
          [0x65, if down then minus else plus] ++ Decimal.numeral e ++ rest) =
      inexact negative
        ⟨n, 1 - (Decimal.numeral n).length + if down then -(e : ℤ) else e⟩ rest := by
  have hleads := leads_take (n := n) hn one_ne_zero
  have hvalue := valueFrom_take_drop n 1
  have hlength : 0 < (Decimal.numeral n).length :=
    List.length_pos_of_ne_nil (Decimal.numeral_ne_nil n)
  have htail : ((((Decimal.numeral n).drop 1).length : ℕ) : ℤ) = (Decimal.numeral n).length - 1 := by
    rw [List.length_drop]
    omega
  have hexponent : ∀ m : ℤ, (if down then m - e else m + e) = m + if down then -(e : ℤ) else e := by
    intro m
    cases down <;> rfl
  set behind := (if down then minus else plus) :: (Decimal.numeral e ++ rest) with hbehind
  have hnodigit : digitAhead (0x65 :: behind) = false := rfl
  cases htailcase : (Decimal.numeral n).drop 1 with
  | nil =>
      rw [htailcase] at hvalue htail
      have hw : Decimal.value ((Decimal.numeral n).take 1) = n := hvalue
      have hread := magnitude_digits negative hleads (by rw [hw]; exact hfits) hnodigit
      rw [afterInteger_mark, hbehind, exponentPart_numeral negative down he hrest, hexponent,
        hw] at hread
      have hzero : (1 : ℤ) - (Decimal.numeral n).length = 0 := by
        rw [List.length_nil, Nat.cast_zero] at htail
        omega
      rw [hzero, ← hread]
      simp
  | cons d ds =>
      have hdigits : ∀ b ∈ d :: ds, isDigit b = true := fun b hb =>
        Decimal.isDigit_of_mem_numeral (List.mem_of_mem_drop (htailcase ▸ hb))
      rw [htailcase] at hvalue htail
      have hread := magnitude_point negative hleads hdigits (List.cons_ne_nil d ds)
        (by rw [hvalue]; exact hfits) hnodigit
      rw [afterFraction_mark, hbehind, exponentPart_numeral negative down he hrest, hexponent, hvalue,
        htail, neg_sub] at hread
      rw [← hread]
      simp

end

/-- **A layout is read as what it spells.** -/
theorem magnitude_layout (negative : Bool) {s : Decimal.Shortest} (hpos : 0 < s.digits)
    (hdigits : s.digits ≤ 10 ^ 18) (hlow : -341 ≤ s.exponent) (hhigh : s.exponent ≤ 309)
    {rest : Bytes} (hrest : endsNumeral rest = true) :
    magnitude negative (s.layout ++ rest) = inexact negative s.spelled rest := by
  have hfits : s.digits < UInt64.size := Nat.lt_of_le_of_lt hdigits (by decide)
  have hlength : (Decimal.numeral s.digits).length ≤ 19 :=
    Decimal.length_numeral_le (by decide) (Nat.lt_of_le_of_lt hdigits (by decide))
  have hsize := Decimal.lt_pow_length s.digits
  obtain ⟨n, e⟩ := s
  simp only [Decimal.Shortest.layout, Decimal.Shortest.spelled] at *
  split
  · next hwhole =>
      obtain ⟨k, rfl⟩ : ∃ k : ℕ, e = k := ⟨e.toNat, by omega⟩
      rw [Int.toNat_natCast]
      refine magnitude_whole negative (by omega) ?_ hrest
      calc n * 10 ^ (k + 1) < 10 ^ (Decimal.numeral n).length * 10 ^ (k + 1) :=
            Nat.mul_lt_mul_of_pos_right hsize (Nat.pow_pos (by decide))
        _ = 10 ^ ((Decimal.numeral n).length + (k + 1)) := (pow_add _ _ _).symm
        _ ≤ 10 ^ 17 := Nat.pow_le_pow_right (by decide) (by omega)
        _ ≤ UInt64.size := by decide
  · next hpart =>
      split
      · next hinside =>
          rw [magnitude_inside negative (by omega) hfits (by omega) (by omega) hrest]
          congr 2
          omega
      · next houtside =>
          split
          · next hahead =>
              rw [magnitude_ahead negative hfits _ hrest]
              congr 2
              omega
          · next hfar =>
              set place : ℤ := (Decimal.numeral n).length + e with hplace
              have hmark : (if place < 1 then minus else plus) =
                  if decide (place < 1) then minus else plus := by
                simp
              rw [hmark, magnitude_exponent negative _ (by omega) hfits (by omega) hrest]
              congr 2
              by_cases hsmall : place < 1
              · simp only [hsmall, decide_true, if_true]
                omega
              · simp only [hsmall, decide_false, Bool.false_eq_true, if_false]
                omega

/-- A layout begins with a digit. -/
theorem exists_layout_eq_cons {s : Decimal.Shortest} :
    ∃ d behind, s.layout = d :: behind ∧ isDigit d = true := by
  have hfront : ∀ {w : Bytes} (behind : Bytes), w ≠ [] → (∀ d ∈ w, isDigit d = true) →
      ∃ d rest, w ++ behind = d :: rest ∧ isDigit d = true := by
    intro w behind hne hdigits
    obtain ⟨d, ds, rfl⟩ := List.exists_cons_of_ne_nil hne
    exact ⟨d, ds ++ behind, rfl, hdigits d List.mem_cons_self⟩
  have htake : ∀ {k : ℕ}, k ≠ 0 → (Decimal.numeral s.digits).take k ≠ [] := by
    intro k hk
    rw [ne_eq, List.take_eq_nil_iff, not_or]
    exact ⟨hk, Decimal.numeral_ne_nil _⟩
  have hdigits : ∀ (k : ℕ), ∀ d ∈ (Decimal.numeral s.digits).take k, isDigit d = true := fun k d hd =>
    Decimal.isDigit_of_mem_numeral (List.mem_of_mem_take hd)
  simp only [Decimal.Shortest.layout]
  split
  · rw [List.append_assoc]
    exact hfront _ (Decimal.numeral_ne_nil _) fun d => Decimal.isDigit_of_mem_numeral
  · split
    · rw [List.append_assoc]
      exact hfront _ (htake (by omega)) (hdigits _)
    · split
      · exact ⟨zero, _, rfl, rfl⟩
      · rw [List.append_assoc, List.append_assoc]
        exact hfront _ (htake one_ne_zero) (hdigits 1)

/-- A sign is read before anything that begins with a digit. -/
theorem number_signed {d : UInt8} (hd : isDigit d = true) (negative : Bool) (s : Bytes) :
    number ((if negative then [minus] else []) ++ d :: s) = magnitude negative (d :: s) := by
  have hsign : d ≠ minus := by
    rintro rfl
    cases hd
  cases negative with
  | false =>
      show number (d :: s) = _
      rw [number, if_neg hsign]
  | true =>
      show number (minus :: d :: s) = _
      rw [number, if_pos rfl]

/-- **The numeral of a finite double is read**, as what it spells. -/
theorem number_float {x : Float} (hx : x.isFinite = true) {rest : Bytes}
    (hrest : endsNumeral rest = true) :
    number (Decimal.float x ++ rest) =
      inexact (Decimal.isNegative x) (Decimal.spelled x) rest := by
  have hsign : (if x.toBits.toNat / Decimal.signUnit = 1 then [minus] else []) =
      if Decimal.isNegative x then [minus] else [] := by
    simp [Decimal.isNegative]
  simp only [Decimal.float, Decimal.spelled, hsign]
  by_cases hzero : x.toBits.toNat % Decimal.signUnit = 0
  · rw [if_pos hzero, if_pos hzero, List.append_assoc, List.cons_append,
      number_signed isDigit_zero]
    have hread := magnitude_point (Decimal.isNegative x) (f := [zero]) leads_zero
      (by simp [isDigit_zero]) (by simp) (by decide) (digitAhead_of_endsNumeral hrest)
    rw [afterFraction_of_endsNumeral _ _ hrest] at hread
    exact hread
  · rw [if_neg hzero, if_neg hzero, List.append_assoc]
    obtain ⟨hpos, hdigits, -, hlow, hhigh⟩ :=
      (Decimal.canonical_ofFloat (Decimal.scale_of_isFinite hx) hzero).shortest
    have hread := magnitude_layout (Decimal.isNegative x) hpos hdigits hlow hhigh hrest
    obtain ⟨d, behind, hcons, hd⟩ := exists_layout_eq_cons (s := (Decimal.Binary.ofFloat x).shortest)
    rw [hcons, List.cons_append] at hread ⊢
    rw [number_signed hd, hread]

end Json

end LiveDiagram
