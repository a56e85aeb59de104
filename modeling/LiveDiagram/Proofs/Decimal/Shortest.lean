import LiveDiagram.Proofs.Decimal.Doubles

/-!
# Where the shortest decimal lies

The digits that are written for a double make a decimal inside the double's interval, the rationals
that round to it.  Eighteen digits are always enough: the grid of spacing `10 ^ g` with eighteen
places below the coarsest one has spacing at most a quarter of the unit in the last bit, so the
neighbour below the value is in the interval.

## Main results

* `Binary.Canonical.rounds`: what lies in the interval rounds to the double.
* `Binary.Canonical.shortest`: the digits that are written make a decimal in the interval, and
  there are at most eighteen of them, or nineteen for `10 ^ 18`.
-/

namespace LiveDiagram.Decimal

namespace Binary

/-- The value of a positive finite double. -/
def value (b : Binary) : ℚ :=
  b.significand * 2 ^ b.exponent

/-- How far the interval reaches down, in quarters of the unit in the last bit. -/
def reach (b : Binary) : ℕ :=
  if b.tight then 1 else 2

/-- The rationals that a double stands for. -/
def Covers (b : Binary) (q : ℚ) : Prop :=
  if b.significand % 2 = 0 then
    (4 * b.significand - b.reach) * 2 ^ b.exponent ≤ 4 * q ∧
      4 * q ≤ (4 * b.significand + 2) * 2 ^ b.exponent
  else
    (4 * b.significand - b.reach) * 2 ^ b.exponent < 4 * q ∧
      4 * q < (4 * b.significand + 2) * 2 ^ b.exponent

section

variable {b : Binary} {q : ℚ}

theorem one_le_reach (b : Binary) : 1 ≤ b.reach ∧ b.reach ≤ 2 := by
  unfold reach
  split <;> omega

theorem Covers.bounds (h : b.Covers q) :
    (4 * b.significand - b.reach) * 2 ^ b.exponent ≤ 4 * q ∧
      4 * q ≤ (4 * b.significand + 2) * 2 ^ b.exponent := by
  unfold Covers at h
  split at h
  · exact h
  · exact ⟨h.1.le, h.2.le⟩

/-- Within the binade of the double, its interval is what is nearest to its significand. -/
theorem Covers.nearest (h : b.Covers q) : Nearest (q / 2 ^ b.exponent) b.significand := by
  have hpos := pow_two_pos b.exponent
  have hreach : (b.reach : ℚ) ≤ 2 := by exact_mod_cast (one_le_reach b).2
  unfold Covers at h
  rw [Nearest, div_sub' hpos.ne', abs_div, abs_of_pos hpos, div_lt_iff₀ hpos, div_eq_iff hpos.ne',
    abs_lt]
  split at h
  · next heven =>
      rcases eq_or_ne |q - 2 ^ b.exponent * b.significand| (1 / 2 * 2 ^ b.exponent) with heq | hne
      · exact Or.inr ⟨heq, heven⟩
      · left
        have habs : |q - 2 ^ b.exponent * b.significand| ≤ 1 / 2 * 2 ^ b.exponent := by
          rw [abs_le]
          constructor <;> nlinarith
        exact abs_lt.mp (lt_of_le_of_ne habs hne)
  · left
    constructor <;> nlinarith

/-- **What lies in the interval of a double rounds to it.** -/
theorem Canonical.rounds (hb : b.Canonical) (hleast : b.exponent ≠ -1074) (h : b.Covers q) :
    Rounds q b.value := by
  have hpos := pow_two_pos b.exponent
  have hfull : scaleUnit ≤ b.significand := hb.full.resolve_right hleast
  have hbounded : (b.significand : ℚ) + 1 ≤ 2 ^ 53 := by exact_mod_cast hb.bounded
  have hbounds := h.bounds
  have hreach : (b.reach : ℚ) ≤ 2 := by exact_mod_cast (one_le_reach b).2
  have hquotient : q / 2 ^ b.exponent * 2 ^ b.exponent = q := div_mul_cancel₀ q hpos.ne'
  rcases le_or_gt (2 ^ 52 * 2 ^ b.exponent) q with hwithin | hbelow
  · rw [← hquotient]
    refine Rounds.intro ((le_div_iff₀ hpos).mpr hwithin) ((div_lt_iff₀ hpos).mpr ?_) h.nearest
    nlinarith
  · -- The double is the least one of its binade, and the rational is in the binade below.
    have hleastOf : b.significand = scaleUnit := by
      have hlt : (b.significand : ℚ) < scaleUnit + 1 := by
        have : (scaleUnit : ℚ) = 2 ^ 52 := by norm_num [scaleUnit]
        nlinarith
      have : b.significand < scaleUnit + 1 := by exact_mod_cast hlt
      omega
    have htight : b.reach = 1 := if_pos (hb.tight.mpr ⟨hleastOf, hleast⟩)
    have hsignificand : (b.significand : ℚ) = 2 ^ 52 := by rw [hleastOf]; norm_num [scaleUnit]
    have hhalf : (2 : ℚ) ^ (b.exponent - 1) * 2 = 2 ^ b.exponent := by
      rw [← zpow_add_one₀ (by norm_num), sub_add_cancel]
    have hposhalf := pow_two_pos (b.exponent - 1)
    rw [htight, hsignificand] at hbounds
    have hlow : (2 ^ 53 : ℕ) - 1 / 2 ≤ q / 2 ^ (b.exponent - 1) := by
      rw [le_div_iff₀ hposhalf]
      push_cast at hbounds ⊢
      nlinarith
    have hhigh : q / 2 ^ (b.exponent - 1) < 2 ^ 53 := by
      rw [div_lt_iff₀ hposhalf]
      nlinarith
    have hnearest : Nearest (q / 2 ^ (b.exponent - 1)) (2 ^ 53) := by
      rcases hlow.lt_or_eq with hlt | heq
      · left
        rw [abs_lt]
        push_cast at hlt ⊢
        constructor <;> linarith
      · right
        rw [← heq]
        norm_num [abs_of_neg]
    have hrounds := Rounds.intro (e := b.exponent - 1) (by push_cast at hlow; linarith) hhigh hnearest
    have hvalue : ((2 ^ 53 : ℕ) : ℚ) * 2 ^ (b.exponent - 1) = b.value := by
      rw [value, hsignificand, ← hhalf]
      norm_num
      ring
    rwa [div_mul_cancel₀ q hposhalf.ne', hvalue] at hrounds

end

/-! ## The neighbours on a grid -/

/-- What a multiple of the double's unit is scaled by. -/
def up (b : Binary) (g : ℤ) : ℕ :=
  2 ^ b.exponent.toNat * 10 ^ (-g).toNat

/-- What a point of the grid is scaled by. -/
def down (b : Binary) (g : ℤ) : ℕ :=
  2 ^ (-b.exponent).toNat * 10 ^ g.toNat

/-- Whether a point of the grid reads back. -/
def reads (b : Binary) (g : ℤ) (c : ℕ) : Bool :=
  if b.significand % 2 = 0 then
    (4 * b.significand - b.reach) * b.up g ≤ 4 * c * b.down g &&
      4 * c * b.down g ≤ (4 * b.significand + 2) * b.up g
  else
    (4 * b.significand - b.reach) * b.up g < 4 * c * b.down g &&
      4 * c * b.down g < (4 * b.significand + 2) * b.up g

/-- The neighbour below the value. -/
def below (b : Binary) (g : ℤ) : ℕ :=
  b.significand * b.up g / b.down g

section

variable {b : Binary} {g : ℤ} {c : ℕ}

theorem onGrid?_eq (b : Binary) (g : ℤ) :
    b.onGrid? g =
      let toBelow := 4 * b.significand * b.up g - 4 * b.below g * b.down g
      let toAbove := 4 * (b.below g + 1) * b.down g - 4 * b.significand * b.up g
      if b.below g ≠ 0 && b.reads g (b.below g) then
        if b.reads g (b.below g + 1) &&
            (toAbove < toBelow || toAbove = toBelow && b.below g % 2 = 1) then some (b.below g + 1)
        else some (b.below g)
      else if b.reads g (b.below g + 1) then some (b.below g + 1)
      else none :=
  rfl

/-- Both factors, as multiples of one number. -/
theorem exists_scale (b : Binary) (g : ℤ) :
    ∃ k : ℚ, 0 < k ∧ (b.up g : ℚ) = 2 ^ b.exponent * k ∧ (b.down g : ℚ) = 10 ^ g * k := by
  have htwo : (2 : ℚ) ^ b.exponent * 2 ^ (-b.exponent).toNat = 2 ^ b.exponent.toNat := by
    rw [← zpow_natCast, ← zpow_natCast, ← zpow_add₀ (by norm_num)]
    congr 1
    omega
  have hten : (10 : ℚ) ^ g * 10 ^ (-g).toNat = 10 ^ g.toNat := by
    rw [← zpow_natCast, ← zpow_natCast, ← zpow_add₀ (by norm_num)]
    congr 1
    omega
  refine ⟨2 ^ (-b.exponent).toNat * 10 ^ (-g).toNat, by positivity, ?_, ?_⟩
  · rw [← mul_assoc, htwo, up]
    push_cast
    rfl
  · rw [mul_left_comm, hten, down]
    push_cast
    rfl

theorem scaled_le_iff (b : Binary) (g : ℤ) (m n : ℕ) :
    m * b.up g ≤ n * b.down g ↔ (m : ℚ) * 2 ^ b.exponent ≤ n * 10 ^ g := by
  obtain ⟨k, hk, hup, hdown⟩ := exists_scale b g
  rw [← Nat.cast_le (α := ℚ), Nat.cast_mul, Nat.cast_mul, hup, hdown, ← mul_assoc, ← mul_assoc,
    mul_le_mul_iff_left₀ hk]

theorem le_scaled_iff (b : Binary) (g : ℤ) (m n : ℕ) :
    n * b.down g ≤ m * b.up g ↔ (n : ℚ) * 10 ^ g ≤ m * 2 ^ b.exponent := by
  obtain ⟨k, hk, hup, hdown⟩ := exists_scale b g
  rw [← Nat.cast_le (α := ℚ), Nat.cast_mul, Nat.cast_mul, hup, hdown, ← mul_assoc, ← mul_assoc,
    mul_le_mul_iff_left₀ hk]

theorem down_pos (b : Binary) (g : ℤ) : 0 < b.down g :=
  Nat.mul_pos (Nat.pow_pos (by decide)) (Nat.pow_pos (by decide))

theorem le_value (b : Binary) (g : ℤ) : (b.below g : ℚ) * 10 ^ g ≤ b.value :=
  (le_scaled_iff b g _ _).mp (Nat.div_mul_le_self _ _)

theorem value_lt (b : Binary) (g : ℤ) : b.value < (b.below g + 1) * 10 ^ g := by
  have hlt : ¬ (b.below g + 1) * b.down g ≤ b.significand * b.up g := by
    rw [not_le, below]
    exact (Nat.div_lt_iff_lt_mul (b.down_pos g)).mp (Nat.lt_succ_self _)
  rw [le_scaled_iff, not_le] at hlt
  exact_mod_cast hlt

theorem cast_reach (hpos : 0 < b.significand) :
    ((4 * b.significand - b.reach : ℕ) : ℚ) = 4 * b.significand - b.reach := by
  have hreach := one_le_reach b
  rw [Nat.cast_sub (by omega)]
  push_cast
  rfl

/-- A point of the grid reads back if it is in the interval. -/
theorem reads_eq_true_iff (hpos : 0 < b.significand) :
    b.reads g c = true ↔ b.Covers (c * 10 ^ g) := by
  have hlow : ((4 * b.significand - b.reach : ℕ) : ℚ) = 4 * b.significand - b.reach := cast_reach hpos
  have hhigh : ((4 * b.significand + 2 : ℕ) : ℚ) = 4 * b.significand + 2 := by push_cast; rfl
  have hpoint : ((4 * c : ℕ) : ℚ) * 10 ^ g = 4 * (c * 10 ^ g) := by push_cast; ring
  unfold reads Covers
  split
  · rw [Bool.and_eq_true, decide_eq_true_eq, decide_eq_true_eq, scaled_le_iff, le_scaled_iff, hlow,
      hhigh, hpoint]
  · rw [Bool.and_eq_true, decide_eq_true_eq, decide_eq_true_eq, ← not_le, ← not_le, scaled_le_iff,
      le_scaled_iff, hlow, hhigh, hpoint, not_le, not_le]

/-- The digits on a grid are those of a neighbour of the value, in the interval. -/
theorem onGrid?_eq_some (hpos : 0 < b.significand) (h : b.onGrid? g = some c) :
    0 < c ∧ b.Covers (c * 10 ^ g) ∧ c ≤ b.below g + 1 := by
  rw [onGrid?_eq] at h
  simp only at h
  split at h
  · next hbelow =>
      rw [Bool.and_eq_true, decide_eq_true_eq] at hbelow
      split at h
      · next habove =>
          cases h
          rw [Bool.and_eq_true] at habove
          exact ⟨Nat.succ_pos _, (reads_eq_true_iff hpos).mp habove.1, le_rfl⟩
      · cases h
        exact ⟨Nat.pos_of_ne_zero hbelow.1, (reads_eq_true_iff hpos).mp hbelow.2, Nat.le_succ _⟩
  · split at h
    · next habove =>
        cases h
        exact ⟨Nat.succ_pos _, (reads_eq_true_iff hpos).mp habove, le_rfl⟩
    · cases h

/-- There are digits on every grid that is four times as fine as the double. -/
theorem exists_onGrid?_eq_some (hpos : 0 < b.significand) (hfine : 4 * (10 : ℚ) ^ g ≤ 2 ^ b.exponent) :
    ∃ c, b.onGrid? g = some c := by
  have hlow := le_value b g
  have hhigh := value_lt b g
  have hten : (0 : ℚ) < 10 ^ g := by positivity
  have hreach : (1 : ℚ) ≤ b.reach := by exact_mod_cast (one_le_reach b).1
  have hone : (1 : ℚ) ≤ b.significand := by exact_mod_cast hpos
  unfold value at hlow hhigh
  have hne : b.below g ≠ 0 := by
    intro hzero
    rw [hzero] at hhigh
    push_cast at hhigh
    nlinarith
  have hreads : b.reads g (b.below g) = true := by
    rw [reads_eq_true_iff hpos, Covers]
    split <;> constructor <;> nlinarith
  rw [onGrid?_eq]
  simp only [hreads, hne, ne_eq, not_false_eq_true, decide_true, Bool.and_self, if_true]
  split <;> exact ⟨_, rfl⟩

end

/-! ## The first grid that has digits -/

/-- The coarsest grid for numbers below `2 ^ n` is just above them. -/
def coarseOf (n : ℤ) : ℤ :=
  n * 30103 / 100000 + 1

/-- The powers of two and ten behind `coarseOf_bounds`, as natural numbers.  The sizes are counted in
two digits, since the kernel unfolds one long count badly. -/
theorem coarseOf_powers : ∀ a : ℕ, a < 46 → ∀ b : ℕ, b < 46 →
    let g := coarseOf ((46 * a + b : ℕ) - 1073)
    10 ^ (g + 382).toNat * 2 ^ 1128 ≤ 2 ^ (46 * a + b) * 10 ^ 400 ∧
      2 ^ (46 * a + b) * 10 ^ 400 ≤ 10 ^ (g + 400).toNat * 2 ^ 1073 := by
  decide +kernel

/-- For all sizes of doubles, the coarsest grid lies above the value, and eighteen places further down
the spacing is at most a quarter of the unit in the last bit. -/
theorem coarseOf_bounds {n : ℤ} (hlow : -1073 ≤ n) (hhigh : n ≤ 1024) :
    (10 : ℚ) ^ (coarseOf n - 18) * 2 ^ 55 ≤ 2 ^ n ∧ (2 : ℚ) ^ n ≤ 10 ^ coarseOf n ∧
      -323 ≤ coarseOf n ∧ coarseOf n ≤ 309 := by
  have hleast : -323 ≤ coarseOf n := by
    unfold coarseOf
    omega
  have hmost : coarseOf n ≤ 309 := by
    unfold coarseOf
    omega
  obtain ⟨i, hi⟩ : ∃ i : ℕ, n = i - 1073 := ⟨(n + 1073).toNat, by omega⟩
  obtain ⟨hfine, habove⟩ := coarseOf_powers (i / 46) (by omega) (i % 46) (Nat.mod_lt _ (by decide))
  rw [Nat.div_add_mod, ← hi] at hfine habove
  generalize coarseOf n = g at *
  have hfine' : (10 : ℚ) ^ (g + 382) * 2 ^ 1128 ≤ 2 ^ (i : ℤ) * 10 ^ 400 := by
    rw [show g + 382 = ((g + 382).toNat : ℤ) by omega, zpow_natCast, zpow_natCast]
    exact_mod_cast hfine
  have habove' : (2 : ℚ) ^ (i : ℤ) * 10 ^ 400 ≤ 10 ^ (g + 400) * 2 ^ 1073 := by
    rw [show g + 400 = ((g + 400).toNat : ℤ) by omega, zpow_natCast, zpow_natCast]
    exact_mod_cast habove
  have hten : (10 : ℚ) ≠ 0 := by norm_num
  have htwo : (2 : ℚ) ^ (i : ℤ) = 2 ^ n * 2 ^ (1073 : ℕ) := by
    rw [← zpow_natCast, ← zpow_add₀ (by norm_num), hi]
    congr 1
    push_cast
    omega
  have hpos : (0 : ℚ) < 2 ^ 1073 * 10 ^ 400 := by positivity
  rw [htwo, show g + 382 = g - 18 + (400 : ℕ) by push_cast; omega, zpow_add₀ hten, zpow_natCast,
    show (1128 : ℕ) = 1073 + 55 from rfl, pow_add] at hfine'
  rw [htwo, show g + 400 = g + (400 : ℕ) by rfl, zpow_add₀ hten, zpow_natCast] at habove'
  generalize (2 : ℚ) ^ 1073 = twos at *
  generalize (10 : ℚ) ^ 400 = tens at *
  exact ⟨le_of_mul_le_mul_right (by linarith) hpos, le_of_mul_le_mul_right (by linarith) hpos,
    hleast, hmost⟩

section

variable {b : Binary}

theorem coarse_eq (b : Binary) : b.coarse = coarseOf (b.exponent + b.significand.log2 + 1) :=
  rfl

/-- The value of a double, between powers of two. -/
theorem value_bounds (hpos : 0 < b.significand) :
    (2 : ℚ) ^ (b.exponent + b.significand.log2) ≤ b.value ∧
      b.value < 2 ^ (b.exponent + b.significand.log2 + 1) := by
  have hlow : (2 : ℚ) ^ b.significand.log2 ≤ b.significand := by
    exact_mod_cast Nat.log2_self_le hpos.ne'
  have hhigh : (b.significand : ℚ) < 2 ^ (b.significand.log2 + 1) := by
    exact_mod_cast Nat.lt_log2_self
  have hunit := pow_two_pos b.exponent
  rw [add_assoc, pow_two_add, pow_two_add, mul_comm, mul_comm ((2 : ℚ) ^ b.exponent) (2 ^ (_ + _)),
    value]
  exact ⟨mul_le_mul_of_nonneg_right (by exact_mod_cast hlow) hunit.le,
    mul_lt_mul_of_pos_right (by exact_mod_cast hhigh) hunit⟩

/-- The grid that is found is not beyond one that is known to have digits. -/
theorem exists_shortest_eq (hlast : ∃ c, b.onGrid? (b.coarse - 18) = some c) :
    ∃ (i c : ℕ), i ≤ 18 ∧ b.onGrid? (b.coarse - i) = some c ∧ b.shortest = ⟨c, b.coarse - i⟩ := by
  obtain ⟨c, hc⟩ := hlast
  have hsearch : ((List.range 19).findSome? fun (i : ℕ) =>
      (b.onGrid? (b.coarse - i)).map (Decimal.Shortest.mk · (b.coarse - i))).isSome = true := by
    rw [List.findSome?_isSome_iff]
    exact ⟨18, by decide, by rw [Nat.cast_ofNat, hc]; rfl⟩
  obtain ⟨s, hs⟩ := Option.isSome_iff_exists.mp hsearch
  have hshortest : b.shortest = s := by
    rw [shortest, List.findSome?_map, show 24 = 19 + 5 from rfl, List.range_add, List.findSome?_append]
    exact congrArg (fun o => (Option.or o _).getD _) hs
  obtain ⟨i, hi, hfound⟩ := List.exists_of_findSome?_eq_some hs
  obtain ⟨d, hd, rfl⟩ := Option.map_eq_some_iff.mp hfound
  exact ⟨i, d, Nat.lt_succ_iff.mp (List.mem_range.mp hi), hd, hshortest⟩

/-- **The digits that are written** lie on one of the nineteen coarsest grids, and make a decimal in
the interval of the double. -/
theorem Canonical.shortest (hb : b.Canonical) :
    0 < b.shortest.digits ∧ b.shortest.digits ≤ 10 ^ 18 ∧
      b.Covers (b.shortest.digits * 10 ^ b.shortest.exponent) ∧
      -341 ≤ b.shortest.exponent ∧ b.shortest.exponent ≤ 309 := by
  have hlog : b.significand.log2 < 53 := (Nat.log2_lt hb.pos.ne').mpr hb.bounded
  obtain ⟨hfine, habove, hleast, hmost⟩ := @coarseOf_bounds (b.exponent + b.significand.log2 + 1)
    (by have := hb.low; omega) (by have := hb.high; omega)
  rw [← coarse_eq] at hfine habove hleast hmost
  have hlast : ∃ c, b.onGrid? (b.coarse - 18) = some c := by
    refine exists_onGrid?_eq_some hb.pos ?_
    have hsize : (2 : ℚ) ^ (b.exponent + b.significand.log2 + 1) ≤ 2 ^ (b.exponent + 53) :=
      pow_two_le_iff.mpr (by omega)
    have htop := hfine.trans hsize
    rw [pow_two_add, show (2 : ℚ) ^ (53 : ℤ) = 2 ^ 53 by norm_num] at htop
    linarith
  obtain ⟨i, c, hi, hgrid, hshortest⟩ := exists_shortest_eq hlast
  obtain ⟨hpos, hcovers, hbelow⟩ := onGrid?_eq_some hb.pos hgrid
  rw [hshortest]
  refine ⟨hpos, ?_, hcovers, by show -341 ≤ b.coarse - i; omega, by show b.coarse - i ≤ 309; omega⟩
  have hten : (0 : ℚ) < 10 ^ (b.coarse - i) := by positivity
  have hplaces : (10 : ℚ) ^ b.coarse = 10 ^ i * 10 ^ (b.coarse - i) := by
    rw [← zpow_natCast, ← zpow_add₀ (by norm_num)]
    congr 1
    omega
  have hlt : (b.below (b.coarse - i) : ℚ) < 10 ^ i := by
    refine lt_of_mul_lt_mul_right ?_ hten.le
    rw [← hplaces]
    exact (le_value b _).trans_lt ((value_bounds hb.pos).2.trans_le habove)
  have hlt' : b.below (b.coarse - i) < 10 ^ i := by exact_mod_cast hlt
  calc c ≤ b.below (b.coarse - i) + 1 := hbelow
    _ ≤ 10 ^ i := hlt'
    _ ≤ 10 ^ 18 := Nat.pow_le_pow_right (by decide) hi

end

end Binary

end LiveDiagram.Decimal
