import HandlerKit.Number.Binary64

/-!
# Finite results of binary64 arithmetic

**Fields** (`biased_ofFields`, `biased_negate`). A number built from a biased exponent and a
fraction in range has that exponent, and flipping the sign bit keeps it; so negation keeps a
number finite.

**Rounding** (`roundRatio_eq_pack`). Rounding a ratio picks the weight `2^u` of the last
significand bit (`unitExp`), rounds the ratio in those units to a significand (`roundedSig`)
and packs the two (`pack`). The exponent rounding starts from is `⌊log₂ (num / den)⌋` or below
it, never above: the ratio is below the next power of two (`lt_floorLog2Ratio`). So the
significand is at most `2^53` (`roundedSig_le`), and a rounded ratio is finite or infinity,
never NaN (`roundRatio_isFinite_or`); below `2^1023` it is finite (`isFinite_roundRatio`).

**Products and quotients.** A product that is not infinite is finite
(`isFinite_mul_of_not_isInfinite`). A quotient by a number of at least 4, such as the power of
ten `pow10 k` for `k ≥ 1` (`biased_pow10`), is finite (`isFinite_div`), whatever the dividend.
-/

namespace HandlerKit.Binary64

/-! ## Fields -/

theorem biased_lt (x : Binary64) : x.biased < 2048 := Nat.mod_lt _ (by decide)

theorem fraction_lt (x : Binary64) : x.fraction < Nat.pow 2 52 := Nat.mod_lt _ (by decide)

theorem significand_lt (x : Binary64) : x.significand < Nat.pow 2 53 := by
  have := fraction_lt x
  unfold significand
  simp only [Nat.pow_eq] at this ⊢
  split <;> omega

theorem exponent_le (x : Binary64) : x.exponent ≤ 972 := by
  have := biased_lt x
  unfold exponent
  split <;> omega

theorem isFinite_of_biased_lt {x : Binary64} (h : x.biased < 2047) : x.isFinite = true := by
  unfold isFinite
  simp only [bne_iff_ne, ne_eq]
  omega

theorem biased_ofFields (neg : Bool) {e f : Nat} (he : e < 2048) (hf : f < Nat.pow 2 52) :
    (ofFields neg e f).biased = e := by
  simp only [Nat.pow_eq] at hf
  have hlt : (if neg then Nat.pow 2 63 else 0) + e * Nat.pow 2 52 + f < 2 ^ 64 := by
    simp only [Nat.pow_eq]
    split <;> omega
  unfold biased ofFields
  rw [UInt64.toNat_ofNat_of_lt' hlt]
  simp only [Nat.pow_eq]
  split <;> omega

/-- Flipping the sign bit leaves the exponent bits alone. -/
theorem biased_negate (x : Binary64) : x.negate.biased = x.biased := by
  have hsign : (0x8000000000000000 : UInt64).toNat / 2 ^ 52 % 2 ^ 11 = 0 := by decide
  unfold biased negate
  rw [UInt64.toNat_xor, show Nat.pow 2 52 = 2 ^ 52 from rfl, show (2048 : Nat) = 2 ^ 11 from rfl,
    Nat.xor_div_two_pow, Nat.xor_mod_two_pow, hsign, Nat.xor_zero]

theorem isFinite_negate (x : Binary64) : x.negate.isFinite = x.isFinite := by
  unfold isFinite
  rw [biased_negate]

theorem isFinite_signedZero (neg : Bool) : (signedZero neg).isFinite = true :=
  isFinite_of_biased_lt (by rw [signedZero, biased_ofFields _ (by decide) (by decide)]; decide)

theorem isInfinite_infinity (neg : Bool) : (infinity neg).isInfinite = true := by
  cases neg <;> decide

theorem isFinite_of_isZero {x : Binary64} (h : x.isZero = true) : x.isFinite = true := by
  unfold isZero at h
  simp only [Bool.and_eq_true, beq_iff_eq] at h
  exact isFinite_of_biased_lt (by omega)

/-! ## Ratios and powers of two -/

/-- A ratio is a pair `(num, den)`; `num * 2 ^ (-t).toNat < den * 2 ^ t.toNat` says it is below
`2^t`. Scaling it by `2^k` keeps it below `2^m` when `t + k ≤ m`. -/
theorem lt_two_pow_of_scaled {num den m : Nat} {t k : Int}
    (h : num * Nat.pow 2 (-t).toNat < den * Nat.pow 2 t.toNat) (hk : t + k ≤ m) :
    num * Nat.pow 2 k.toNat < Nat.pow 2 m * (den * Nat.pow 2 (-k).toNat) := by
  have hpow : 2 ^ t.toNat * 2 ^ k.toNat ≤ 2 ^ m * 2 ^ (-k).toNat * 2 ^ (-t).toNat := by
    rw [← Nat.pow_add, ← Nat.pow_add, ← Nat.pow_add]
    exact Nat.pow_le_pow_right (by decide) (by omega)
  refine Nat.lt_of_mul_lt_mul_right (a := 2 ^ (-t).toNat) ?_
  calc num * 2 ^ k.toNat * 2 ^ (-t).toNat = num * 2 ^ (-t).toNat * 2 ^ k.toNat :=
        Nat.mul_right_comm _ _ _
    _ < den * 2 ^ t.toNat * 2 ^ k.toNat := Nat.mul_lt_mul_of_pos_right h (Nat.two_pow_pos _)
    _ = den * (2 ^ t.toNat * 2 ^ k.toNat) := Nat.mul_assoc _ _ _
    _ ≤ den * (2 ^ m * 2 ^ (-k).toNat * 2 ^ (-t).toNat) := Nat.mul_le_mul_left _ hpow
    _ = 2 ^ m * (den * 2 ^ (-k).toNat) * 2 ^ (-t).toNat := by ac_rfl

/-- The same for a ratio at least `2^t`: scaled by `2^k` it is at least `2^m` when
`m ≤ t + k`. -/
theorem two_pow_le_of_scaled {num den m : Nat} {t k : Int}
    (h : den * Nat.pow 2 t.toNat ≤ num * Nat.pow 2 (-t).toNat) (hk : m ≤ t + k) :
    Nat.pow 2 m * (den * Nat.pow 2 (-k).toNat) ≤ num * Nat.pow 2 k.toNat := by
  have hpow : 2 ^ m * 2 ^ (-k).toNat * 2 ^ (-t).toNat ≤ 2 ^ t.toNat * 2 ^ k.toNat := by
    rw [← Nat.pow_add, ← Nat.pow_add, ← Nat.pow_add]
    exact Nat.pow_le_pow_right (by decide) (by omega)
  refine Nat.le_of_mul_le_mul_right ?_ (Nat.two_pow_pos (-t).toNat)
  calc 2 ^ m * (den * 2 ^ (-k).toNat) * 2 ^ (-t).toNat
        = den * (2 ^ m * 2 ^ (-k).toNat * 2 ^ (-t).toNat) := by ac_rfl
    _ ≤ den * (2 ^ t.toNat * 2 ^ k.toNat) := Nat.mul_le_mul_left _ hpow
    _ = den * 2 ^ t.toNat * 2 ^ k.toNat := (Nat.mul_assoc _ _ _).symm
    _ ≤ num * 2 ^ (-t).toNat * 2 ^ k.toNat := Nat.mul_le_mul_right _ h
    _ = num * 2 ^ k.toNat * 2 ^ (-t).toNat := Nat.mul_right_comm _ _ _

theorem scaleRatio_eq (num den : Nat) (s : Int) :
    scaleRatio num den s = (num * Nat.pow 2 s.toNat, den * Nat.pow 2 (-s).toNat) := by
  unfold scaleRatio
  split
  · rw [show (-s).toNat = 0 by omega]
    simp only [Nat.pow_eq, Nat.pow_zero, Nat.mul_one]
  · rw [show s.toNat = 0 by omega]
    simp only [Nat.pow_eq, Nat.pow_zero, Nat.mul_one]

/-! ## The starting exponent -/

theorem floorLog2Ratio_le (num den : Nat) :
    floorLog2Ratio num den ≤ (Nat.log2 num : Int) - Nat.log2 den := by
  unfold floorLog2Ratio
  dsimp only
  split <;> omega

/-- The ratio is below `2 ^ (floorLog2Ratio num den + 1)`. -/
theorem lt_floorLog2Ratio {num den : Nat} (hd : den ≠ 0) :
    num * Nat.pow 2 (-(floorLog2Ratio num den + 1)).toNat < den * Nat.pow 2 (floorLog2Ratio num den + 1).toNat := by
  unfold floorLog2Ratio
  dsimp only
  split
  · -- from `num < 2 ^ (log₂ num + 1)` and `2 ^ log₂ den ≤ den`
    calc num * 2 ^ (-((Nat.log2 num : Int) - Nat.log2 den + 1)).toNat
          < 2 ^ (Nat.log2 num + 1) * 2 ^ (-((Nat.log2 num : Int) - Nat.log2 den + 1)).toNat :=
          Nat.mul_lt_mul_of_pos_right Nat.lt_log2_self (Nat.two_pow_pos _)
      _ = 2 ^ Nat.log2 den * 2 ^ ((Nat.log2 num : Int) - Nat.log2 den + 1).toNat := by
          rw [← Nat.pow_add, ← Nat.pow_add]
          congr 1
          omega
      _ ≤ den * 2 ^ ((Nat.log2 num : Int) - Nat.log2 den + 1).toNat :=
          Nat.mul_le_mul_right _ (Nat.log2_self_le hd)
  · -- the test failed: the ratio is below `2 ^ t`, and the exponent is `t - 1`
    rename_i hge
    rw [Int.sub_add_cancel]
    unfold ratioGePow2 at hge
    split at hge
    · rw [show (-((Nat.log2 num : Int) - Nat.log2 den)).toNat = 0 by omega]
      simp only [Nat.pow_eq, decide_eq_true_eq] at hge
      simpa using hge
    · rw [show ((Nat.log2 num : Int) - Nat.log2 den).toNat = 0 by omega]
      simp only [Nat.pow_eq, decide_eq_true_eq] at hge
      simpa using hge

theorem floorLog2Ratio_one {n : Nat} (hn : n ≠ 0) : floorLog2Ratio n 1 = Nat.log2 n := by
  have hge : ratioGePow2 n 1 (Nat.log2 n - Nat.log2 1) = true := by
    rw [show Nat.log2 1 = 0 by decide, Int.natCast_zero, Int.sub_zero, ratioGePow2,
      if_pos (Int.natCast_nonneg _), Int.toNat_natCast]
    simpa using Nat.log2_self_le hn
  rw [floorLog2Ratio, if_pos hge, show Nat.log2 1 = 0 by decide, Int.natCast_zero, Int.sub_zero]

/-! ## Rounding in three steps -/

/-- The weight `2^u` of the last significand bit when rounding `num / den * 2^shift`: 52 bits
below the leading one, never below `2^-1074`. -/
def unitExp (num den : Nat) (shift : Int) : Int := max (floorLog2Ratio num den + shift - 52) (-1074)

/-- The ratio in units of `2 ^ unitExp`, rounded to the nearest natural number. -/
def roundedSig (num den : Nat) (shift : Int) : Nat :=
  let scaled := scaleRatio num den (shift - unitExp num den shift)
  roundHalfEven scaled.1 scaled.2

/-- The number of significand `q` in units of `2^u`, with a carry out of 53 bits; infinity when
it is too large. -/
def pack (neg : Bool) (q : Nat) (u : Int) : Binary64 :=
  let carried : Nat × Int := if q = Nat.pow 2 53 then (Nat.pow 2 52, u + 1) else (q, u)
  if 971 < carried.2 then infinity neg
  else if carried.1 < Nat.pow 2 52 then ofFields neg 0 carried.1
  else ofFields neg (carried.2 + 1075).toNat (carried.1 - Nat.pow 2 52)

theorem roundRatio_eq_pack {neg : Bool} {num den : Nat} {shift : Int} (h : ¬(num = 0 ∨ den = 0)) :
    roundRatio neg num den shift = pack neg (roundedSig num den shift) (unitExp num den shift) := by
  rw [roundRatio, if_neg h]
  rfl

theorem roundHalfEven_le {n d m : Nat} (h : n < m * d) : roundHalfEven n d ≤ m := by
  have : n / d < m := Nat.div_lt_of_lt_mul (by rwa [Nat.mul_comm])
  unfold roundHalfEven
  dsimp only
  split <;> omega

theorem div_le_roundHalfEven (n d : Nat) : n / d ≤ roundHalfEven n d := by
  unfold roundHalfEven
  dsimp only
  split <;> omega

/-- The rounded significand has at most 53 bits: the ratio in units of `2 ^ unitExp` is below
`2^53`, as the starting exponent is at most `⌊log₂⌋`. -/
theorem roundedSig_le {num den : Nat} (hd : den ≠ 0) (shift : Int) :
    roundedSig num den shift ≤ Nat.pow 2 53 := by
  unfold roundedSig
  rw [scaleRatio_eq]
  apply roundHalfEven_le
  exact lt_two_pow_of_scaled (lt_floorLog2Ratio hd) (by unfold unitExp; omega)

/-- What a carry leaves: a significand below `2^53`, at least `2^52` when `q` was, and a unit one
step up at most. -/
theorem carry_eq {q : Nat} {u : Int} (hq : q ≤ Nat.pow 2 53) :
    ∃ m e, (if q = Nat.pow 2 53 then (Nat.pow 2 52, u + 1) else (q, u)) = (m, e) ∧ m < Nat.pow 2 53 ∧
      u ≤ e ∧ e ≤ u + 1 ∧ (Nat.pow 2 52 ≤ q → Nat.pow 2 52 ≤ m) := by
  simp only [Nat.pow_eq] at hq ⊢
  split
  · exact ⟨_, _, rfl, by decide, by omega, by omega, fun _ => by decide⟩
  · rename_i h
    exact ⟨_, _, rfl, by omega, by omega, by omega, id⟩

/-- Packing gives a finite number, or infinity from a unit of at least `2^971`. -/
theorem pack_isFinite_or {neg : Bool} {q : Nat} {u : Int} (hq : q ≤ Nat.pow 2 53) :
    (pack neg q u).isFinite = true ∨ (pack neg q u = infinity neg ∧ 971 ≤ u) := by
  obtain ⟨m, e, hc, hm, he1, he2, -⟩ := carry_eq (u := u) hq
  simp only [Nat.pow_eq] at hm
  unfold pack
  rw [hc]
  dsimp only
  split
  · exact .inr ⟨rfl, by omega⟩
  · left
    split
    · rename_i h
      exact isFinite_of_biased_lt (by rw [biased_ofFields _ (by decide) h]; decide)
    · exact isFinite_of_biased_lt (by
        rw [biased_ofFields _ (by omega) (by simp only [Nat.pow_eq]; omega)]
        omega)

/-- A significand of 53 bits packs to a number whose exponent is at least that of its unit. -/
theorem biased_pack {neg : Bool} {q : Nat} {u : Int} (hq1 : Nat.pow 2 52 ≤ q) (hq : q ≤ Nat.pow 2 53) :
    min 2047 (u + 1075).toNat ≤ (pack neg q u).biased := by
  obtain ⟨m, e, hc, hm, he1, he2, hm1⟩ := carry_eq (u := u) hq
  have hm1 := hm1 hq1
  simp only [Nat.pow_eq] at hm hm1
  unfold pack
  rw [hc]
  dsimp only
  split
  · rw [infinity, biased_ofFields _ (by decide) (by decide)]
    omega
  · split
    · simp only [Nat.pow_eq] at *
      omega
    · rw [biased_ofFields _ (by omega) (by simp only [Nat.pow_eq]; omega)]
      omega

/-! ## Rounded ratios -/

/-- A rounded ratio is finite or infinity, never NaN; infinity only from `2^1023` up. -/
theorem roundRatio_isFinite_or (neg : Bool) (num den : Nat) (shift : Int) :
    (roundRatio neg num den shift).isFinite = true ∨
      (roundRatio neg num den shift = infinity neg ∧ 1022 < floorLog2Ratio num den + shift) := by
  by_cases hz : num = 0 ∨ den = 0
  · rw [roundRatio, if_pos hz]
    exact .inl (isFinite_signedZero neg)
  · rw [roundRatio_eq_pack hz]
    rcases @pack_isFinite_or neg _ (unitExp num den shift)
      (roundedSig_le (fun h => hz (.inr h)) shift) with h | ⟨h, hu⟩
    · exact .inl h
    · exact .inr ⟨h, by unfold unitExp at hu; omega⟩

theorem isFinite_roundRatio {neg : Bool} {num den : Nat} {shift : Int}
    (h : floorLog2Ratio num den + shift ≤ 1022) : (roundRatio neg num den shift).isFinite = true := by
  rcases roundRatio_isFinite_or neg num den shift with hf | ⟨-, hlt⟩
  · exact hf
  · omega

/-- A natural number from 4 up is rounded to a number of at least 4. -/
theorem biased_ofNat {n : Nat} (hn : 4 ≤ n) : 1025 ≤ (ofNat n).biased := by
  have hn0 : n ≠ 0 := by omega
  have hlog : 2 ≤ Nat.log2 n := (Nat.le_log2 hn0).2 hn
  have hunit : unitExp n 1 0 = Nat.log2 n - 52 := by
    rw [unitExp, floorLog2Ratio_one hn0]
    omega
  -- in units of `2 ^ (log₂ n - 52)` the number has at least 53 bits
  have hsig : 2 ^ 52 ≤ roundedSig n 1 0 := by
    unfold roundedSig
    rw [scaleRatio_eq, hunit]
    refine Nat.le_trans ((Nat.le_div_iff_mul_le (Nat.pos_of_ne_zero ?_)).2 ?_) (div_le_roundHalfEven _ _)
    · exact Nat.mul_ne_zero (by decide) (Nat.pos_iff_ne_zero.1 (Nat.two_pow_pos _))
    · refine two_pow_le_of_scaled (t := Nat.log2 n) ?_ (by omega)
      rw [Int.toNat_natCast, show (-(Nat.log2 n : Int)).toNat = 0 by omega]
      simp only [Nat.pow_eq, Nat.pow_zero, Nat.mul_one, Nat.one_mul]
      exact Nat.log2_self_le hn0
  have h := @biased_pack false _ (unitExp n 1 0) hsig (roundedSig_le (by decide) 0)
  rw [ofNat, roundRatio_eq_pack (by omega)]
  rw [hunit] at h ⊢
  omega

theorem biased_pow10 {k : Nat} (hk : 1 ≤ k) : 1025 ≤ (pow10 k).biased := by
  apply biased_ofNat
  calc 4 ≤ Nat.pow 10 1 := by decide
    _ ≤ Nat.pow 10 k := Nat.pow_le_pow_right (by decide) hk

/-! ## Products and quotients -/

theorem isFinite_mul_of_not_isInfinite {x y : Binary64} (h : (x.mul y).isInfinite = false) :
    (x.mul y).isFinite = true := by
  rcases roundRatio_isFinite_or (x.sign != y.sign) (x.significand * y.significand) 1
    (x.exponent + y.exponent) with hf | ⟨hinf, -⟩
  · exact hf
  · rw [mul, hinf, isInfinite_infinity] at h
    cases h

/-- A quotient by a number of at least 4 is finite: it is at most a quarter of the largest
finite number, so it cannot round up to `2^1024`. -/
theorem isFinite_div (x : Binary64) {y : Binary64} (hy : 1025 ≤ y.biased) :
    (x.div y).isFinite = true := by
  have hx := significand_lt x
  have hlogx : Nat.log2 x.significand ≤ 52 := by
    rcases Nat.eq_zero_or_pos x.significand with h0 | hpos
    · rw [h0]
      decide
    · exact Nat.le_of_lt_succ ((Nat.log2_lt (Nat.pos_iff_ne_zero.1 hpos)).2 hx)
  have hsy : 2 ^ 52 ≤ y.significand := by
    unfold significand
    rw [if_neg (by omega)]
    simp only [Nat.pow_eq]
    omega
  have hlogy : 52 ≤ Nat.log2 y.significand :=
    (Nat.le_log2 (by have := Nat.two_pow_pos 52; omega)).2 hsy
  have hey : y.exponent = (y.biased : Int) - 1075 := by
    unfold exponent
    rw [if_neg (by omega)]
  apply isFinite_roundRatio
  have := floorLog2Ratio_le x.significand y.significand
  have := exponent_le x
  omega

theorem isFinite_ofNat {n : Nat} (hn : n < Nat.pow 2 64) : (ofNat n).isFinite = true := by
  apply isFinite_roundRatio
  have := floorLog2Ratio_le n 1
  have : Nat.log2 n ≤ 63 := by
    rcases Nat.eq_zero_or_pos n with h0 | hpos
    · rw [h0]
      decide
    · exact Nat.le_of_lt_succ ((Nat.log2_lt (Nat.pos_iff_ne_zero.1 hpos)).2 hn)
  omega

end HandlerKit.Binary64
