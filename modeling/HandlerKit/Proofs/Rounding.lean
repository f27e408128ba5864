import HandlerKit.Proofs.Binary64
import Mathlib.Algebra.Order.Field.Power
import Mathlib.Data.Rat.Cast.Order
import Mathlib.Tactic.FieldSimp
import Mathlib.Tactic.Linarith
import Mathlib.Tactic.Positivity
import Mathlib.Tactic.Ring

/-!
# Rounding to nearest, ties to even

`roundRatio neg num den shift` rounds the exact number `num / den * 2^shift` to binary64. This
module proves that it rounds as IEEE 754 asks of every basic operation: to the nearest finite
number, of two equally near the one with an even significand, and to infinity from
`2^1024 - 2^970` up, halfway between the largest finite number and `2^1024`.

**Values** (`magnitude`, `toRat`). A finite number is `±significand * 2^exponent`.

**The grid.** Rounding works in units `2^u` of the last significand bit at the magnitude of the
number (`unitExp`). Every finite magnitude is a whole multiple of `2^u`, or lies below
`2^52 * 2^u`, which is itself a multiple and no farther above the number than the number's own
binade allows (`magnitude_grid`). So the nearest multiple of `2^u` (`roundHalfEven`, the nearest
whole number with ties to even) is the nearest finite number (`roundRatio_nearest`).

**Overflow** (`roundRatio_eq_infinity_iff`). In the top binade the units are `2^971`, and the
significand rounds up to `2^53`, past the largest finite number, exactly from `2^53 - 1/2` units.

**Theorem (`roundRatio_roundsTo`).** Every rounded ratio satisfies `RoundsTo`, the rounding
specification stated on rationals alone.
-/

namespace HandlerKit.Binary64

/-! ## Fields of a packed number -/

theorem ofFields_lt (neg : Bool) {e f : Nat} (he : e < 2048) (hf : f < Nat.pow 2 52) :
    (if neg then Nat.pow 2 63 else 0) + e * Nat.pow 2 52 + f < 2 ^ 64 := by
  simp only [Nat.pow_eq] at hf ⊢
  split <;> omega

theorem fraction_ofFields (neg : Bool) {e f : Nat} (he : e < 2048) (hf : f < Nat.pow 2 52) :
    (ofFields neg e f).fraction = f := by
  have hlt := ofFields_lt neg he hf
  simp only [Nat.pow_eq] at hf
  unfold fraction ofFields
  rw [UInt64.toNat_ofNat_of_lt' hlt]
  simp only [Nat.pow_eq]
  split <;> omega

theorem sign_ofFields (neg : Bool) {e f : Nat} (he : e < 2048) (hf : f < Nat.pow 2 52) :
    (ofFields neg e f).sign = neg := by
  have hlt := ofFields_lt neg he hf
  simp only [Nat.pow_eq] at hf
  unfold sign ofFields
  rw [UInt64.toNat_ofNat_of_lt' hlt]
  cases neg
  · simp only [Bool.false_eq_true, if_false, Nat.pow_eq, decide_eq_false_iff_not]
    omega
  · simp only [if_true, Nat.pow_eq, decide_eq_true_eq]
    omega

theorem sign_infinity (neg : Bool) : (infinity neg).sign = neg :=
  sign_ofFields neg (by decide) (by decide)

/-- A subnormal number: the fraction counts units of `2^-1074`. -/
theorem significand_subnormal (neg : Bool) {f : Nat} (hf : f < Nat.pow 2 52) :
    (ofFields neg 0 f).significand = f ∧ (ofFields neg 0 f).exponent = -1074 := by
  have hb := biased_ofFields neg (e := 0) (by decide) hf
  unfold significand exponent
  rw [hb, if_pos rfl, if_pos rfl, fraction_ofFields neg (by decide) hf]
  exact ⟨rfl, rfl⟩

/-- A normal number: the fraction follows a leading bit, at the exponent `e - 1075`. -/
theorem significand_normal (neg : Bool) {e f : Nat} (he0 : 0 < e) (he : e < 2048)
    (hf : f < Nat.pow 2 52) :
    (ofFields neg e f).significand = f + Nat.pow 2 52 ∧ (ofFields neg e f).exponent = e - 1075 := by
  have hb := biased_ofFields neg he hf
  unfold significand exponent
  rw [hb, if_neg (by omega), if_neg (by omega), fraction_ofFields neg he hf]
  exact ⟨rfl, rfl⟩

theorem exponent_ge (x : Binary64) : -1074 ≤ x.exponent := by
  unfold exponent
  split <;> omega

/-! ## Values -/

/-- The magnitude of a finite number: its significand times two to its exponent. -/
def magnitude (x : Binary64) : ℚ := (x.significand : ℚ) * 2 ^ x.exponent

/-- The rational with the sign `neg` and the magnitude `r`. -/
def signedValue (neg : Bool) (r : ℚ) : ℚ := if neg then -r else r

/-- The value of a finite number. -/
def toRat (x : Binary64) : ℚ := signedValue x.sign x.magnitude

theorem magnitude_nonneg (x : Binary64) : 0 ≤ x.magnitude := by
  unfold magnitude
  positivity

theorem magnitude_lt (x : Binary64) : x.magnitude < 2 ^ (x.exponent + 53) := by
  have hs : (x.significand : ℚ) < 2 ^ 53 := by
    have := significand_lt x
    simp only [Nat.pow_eq] at this
    exact_mod_cast this
  unfold magnitude
  rw [zpow_add₀ two_ne_zero, mul_comm (2 ^ x.exponent : ℚ), show (2 : ℚ) ^ (53 : Int) = 2 ^ 53 by
    norm_num]
  exact mul_lt_mul_of_pos_right hs (by positivity)

/-- A number with its exponent at least `u` is a whole multiple of `2^u`. -/
theorem magnitude_mem_grid (x : Binary64) {u : Int} (h : u ≤ x.exponent) :
    ∃ k : Nat, x.magnitude = k * 2 ^ u := by
  refine ⟨x.significand * 2 ^ (x.exponent - u).toNat, ?_⟩
  unfold magnitude
  push_cast
  rw [mul_assoc, ← zpow_natCast, Int.toNat_of_nonneg (by omega), ← zpow_add₀ two_ne_zero,
    sub_add_cancel]

/-- A nonzero magnitude is at least the smallest subnormal, `2^-1074`. -/
theorem magnitude_eq_zero_or (x : Binary64) : x.magnitude = 0 ∨ 2 ^ (-1074 : Int) ≤ x.magnitude := by
  unfold magnitude
  rcases Nat.eq_zero_or_pos x.significand with h | h
  · left
    rw [h, Nat.cast_zero, zero_mul]
  · right
    calc (2 : ℚ) ^ (-1074 : Int) ≤ 2 ^ x.exponent := zpow_le_zpow_right₀ (by norm_num) (exponent_ge x)
      _ ≤ x.significand * 2 ^ x.exponent :=
        le_mul_of_one_le_left (by positivity) (by exact_mod_cast h)

theorem signedValue_zero (neg : Bool) : signedValue neg 0 = 0 := by
  cases neg <;> simp [signedValue]

theorem abs_signedValue_sub (neg : Bool) (a r : ℚ) :
    |signedValue neg a - signedValue neg r| = |a - r| := by
  cases neg
  · simp [signedValue]
  · simp [signedValue]
    rw [neg_add_eq_sub, abs_sub_comm]

/-- Of opposite signs, two numbers are as far apart as their magnitudes added. -/
theorem abs_signedValue_not_sub {a r : ℚ} (ha : 0 ≤ a) (hr : 0 ≤ r) (neg : Bool) :
    |signedValue (!neg) a - signedValue neg r| = a + r := by
  cases neg
  · simp [signedValue]
    rw [abs_of_nonpos (by linarith)]
    ring
  · simp [signedValue]
    linarith

theorem magnitude_zero : zero.magnitude = 0 := by
  rw [magnitude, show zero.significand = 0 by decide, Nat.cast_zero, zero_mul]

theorem sign_signedZero (neg : Bool) : (signedZero neg).sign = neg :=
  sign_ofFields neg (by decide) (by decide)

theorem magnitude_signedZero (neg : Bool) : (signedZero neg).magnitude = 0 := by
  rw [magnitude, signedZero, (significand_subnormal neg (f := 0) (by decide)).1, Nat.cast_zero,
    zero_mul]

/-! ## Packing a significand -/

/-- The exponent a significand `q` in units of `2^u` ends with: one up after a carry. -/
def carriedExp (q : Nat) (u : Int) : Int := if q = Nat.pow 2 53 then u + 1 else u

/-- Packing a significand `q` in units of `2^u` gives the finite number `±q * 2^u` when the unit
is at least the smallest, `q` has 53 bits unless the unit is the smallest, and no carry takes the
exponent past `971`. -/
theorem pack_finite {neg : Bool} {q : Nat} {u : Int} (hq : q ≤ Nat.pow 2 53) (hu : -1074 ≤ u)
    (hnorm : -1074 < u → Nat.pow 2 52 ≤ q) (hc : carriedExp q u ≤ 971) :
    (pack neg q u).isFinite = true ∧ (pack neg q u).sign = neg ∧
      (pack neg q u).magnitude = q * 2 ^ u ∧ (pack neg q u).significand % 2 = q % 2 := by
  unfold carriedExp at hc
  unfold pack
  by_cases h53 : q = Nat.pow 2 53
  · -- a carry: `2^52` units of `2^(u+1)`
    subst h53
    rw [if_pos rfl] at hc ⊢
    dsimp only
    rw [if_neg (by omega), if_neg (by simp only [Nat.pow_eq]; omega), Nat.sub_self]
    obtain ⟨hs, he⟩ := significand_normal neg (e := (u + 1 + 1075).toNat) (f := 0) (by omega)
      (by omega) (by decide)
    refine ⟨isFinite_of_biased_lt (by rw [biased_ofFields _ (by omega) (by decide)]; omega),
      sign_ofFields _ (by omega) (by decide), ?_, by rw [hs]⟩
    rw [magnitude, hs, he, show ((u + 1 + 1075).toNat : Int) - 1075 = u + 1 by omega,
      zpow_add₀ (by norm_num), zpow_one]
    simp only [Nat.pow_eq, Nat.zero_add, Nat.cast_pow, Nat.cast_ofNat]
    ring
  · rw [if_neg h53] at hc ⊢
    dsimp only
    rw [if_neg (by omega)]
    have hq53 : q < Nat.pow 2 53 := Nat.lt_of_le_of_ne hq h53
    by_cases h52 : q < Nat.pow 2 52
    · -- a subnormal: the unit must be the smallest
      have hu' : u = -1074 := by
        by_contra hne
        exact absurd (hnorm (by omega)) (Nat.not_le.2 h52)
      rw [if_pos h52]
      obtain ⟨hs, he⟩ := significand_subnormal neg h52
      refine ⟨isFinite_of_biased_lt (by rw [biased_ofFields _ (by decide) h52]; decide),
        sign_ofFields _ (by decide) h52, ?_, by rw [hs]⟩
      rw [magnitude, hs, he, hu']
    · rw [if_neg h52]
      have hf : q - Nat.pow 2 52 < Nat.pow 2 52 := by simp only [Nat.pow_eq] at *; omega
      obtain ⟨hs, he⟩ := significand_normal neg (e := (u + 1075).toNat) (by omega) (by omega) hf
      refine ⟨isFinite_of_biased_lt (by rw [biased_ofFields _ (by omega) hf]; omega),
        sign_ofFields _ (by omega) hf, ?_, by rw [hs, Nat.sub_add_cancel (Nat.le_of_not_lt h52)]⟩
      rw [magnitude, hs, he, show ((u + 1075).toNat : Int) - 1075 = u by omega,
        Nat.sub_add_cancel (Nat.le_of_not_lt h52)]

/-- Past `971`, packing gives infinity. -/
theorem pack_infinite {neg : Bool} {q : Nat} {u : Int} (hc : 971 < carriedExp q u) :
    pack neg q u = infinity neg := by
  unfold carriedExp at hc
  unfold pack
  dsimp only
  split
  · rw [if_pos (by assumption)] at hc
    rw [if_pos hc]
  · rw [if_neg (by assumption)] at hc
    rw [if_pos hc]

/-! ## The nearest whole number, ties to even -/

theorem roundHalfEven_cases (n d : Nat) :
    (roundHalfEven n d = n / d ∧ (2 * (n % d) < d ∨ (2 * (n % d) = d ∧ n / d % 2 = 0))) ∨
    (roundHalfEven n d = n / d + 1 ∧ (d < 2 * (n % d) ∨ (2 * (n % d) = d ∧ n / d % 2 = 1))) := by
  unfold roundHalfEven
  dsimp only
  split
  · rename_i h
    exact .inr ⟨rfl, h⟩
  · rename_i h
    exact .inl ⟨rfl, by omega⟩

/-- The ratio `n / d` is its whole part plus a remainder below one. -/
theorem ratio_eq_div_add {n d : Nat} (hd : 0 < d) :
    (n : ℚ) / d = (n / d : Nat) + ((n % d : Nat) : ℚ) / d := by
  have hd' : (d : ℚ) ≠ 0 := by exact_mod_cast hd.ne'
  have h := Nat.div_add_mod n d
  field_simp
  exact_mod_cast h.symm

/-- `roundHalfEven n d` is within a half of `n / d`, and exactly a half away only when even. -/
theorem two_mul_abs_sub_roundHalfEven {n d : Nat} (hd : 0 < d) :
    2 * |(n : ℚ) / d - roundHalfEven n d| ≤ 1 ∧
      (2 * |(n : ℚ) / d - roundHalfEven n d| = 1 → Even (roundHalfEven n d)) := by
  have hdq : (0 : ℚ) < d := by exact_mod_cast hd
  rw [ratio_eq_div_add hd]
  -- the remainder as a fraction `ρ` of the divisor
  set ρ : ℚ := ((n % d : Nat) : ℚ) / d
  have hρ0 : 0 ≤ ρ := by positivity
  have hρ1 : ρ < 1 := by
    rw [div_lt_one hdq]
    exact_mod_cast Nat.mod_lt n hd
  have h2ρ : 2 * ρ = ((2 * (n % d) : Nat) : ℚ) / d := by
    push_cast
    ring
  have hhalf : 2 * ρ = 1 → 2 * (n % d) = d := by
    rw [h2ρ, div_eq_one_iff_eq hdq.ne']
    exact_mod_cast id
  rcases roundHalfEven_cases n d with ⟨hq, hr⟩ | ⟨hq, hr⟩
  · -- kept the whole part: the remainder is at most a half
    have hle : 2 * ρ ≤ 1 := by
      rw [h2ρ, div_le_one hdq]
      exact_mod_cast (by omega : 2 * (n % d) ≤ d)
    rw [hq, add_sub_cancel_left, abs_of_nonneg hρ0]
    refine ⟨hle, fun h => Nat.even_iff.2 ?_⟩
    have := hhalf h
    omega
  · -- rounded up: the remainder is at least a half
    have hge : 1 ≤ 2 * ρ := by
      rw [h2ρ, one_le_div hdq]
      exact_mod_cast (by omega : d ≤ 2 * (n % d))
    rw [hq, Nat.cast_add, Nat.cast_one, show (n / d : Nat) + ρ - ((n / d : Nat) + 1) = ρ - 1 by ring,
      abs_of_neg (by linarith)]
    refine ⟨by linarith, fun h => Nat.even_iff.2 ?_⟩
    have := hhalf (by linarith)
    omega

/-- A whole number within a half of `x` is a nearest one, and another is as near only when
the first is exactly a half away. -/
theorem abs_sub_le_of_two_mul_abs_le {x : ℚ} {q : Nat} (h : 2 * |x - q| ≤ 1) (k : Nat) :
    |x - q| ≤ |x - k| ∧ (|x - k| = |x - q| → k ≠ q → 2 * |x - q| = 1) := by
  by_cases hk : k = q
  · subst hk
    exact ⟨le_rfl, fun _ h => absurd rfl h⟩
  · have h1 : 1 ≤ |(k : ℚ) - q| := by
      rcases Nat.lt_or_gt_of_ne hk with hlt | hlt
      · rw [abs_sub_comm, abs_of_pos (sub_pos.2 (by exact_mod_cast hlt))]
        have : (k : ℚ) + 1 ≤ q := by exact_mod_cast hlt
        linarith
      · rw [abs_of_pos (sub_pos.2 (by exact_mod_cast hlt))]
        have : (q : ℚ) + 1 ≤ k := by exact_mod_cast hlt
        linarith
    have h2 : |(k : ℚ) - q| ≤ |x - k| + |x - q| := by
      rw [abs_sub_comm x k]
      exact abs_sub_le _ _ _
    exact ⟨by linarith, fun heq _ => le_antisymm h (by linarith)⟩

/-- With `m` even and `n / d` below `m`, the ratio rounds to `m` exactly from `m - 1/2` up. -/
theorem roundHalfEven_eq_iff {n d m : Nat} (hd : 0 < d) (hm : Even m)
    (hq : roundHalfEven n d ≤ m) (hx : (n : ℚ) / d < m) :
    roundHalfEven n d = m ↔ (m : ℚ) - 1 / 2 ≤ n / d := by
  obtain ⟨hnear, htie⟩ := two_mul_abs_sub_roundHalfEven (n := n) hd
  constructor
  · intro h
    rw [h, abs_of_neg (sub_neg.2 hx)] at hnear
    linarith
  · intro hge
    by_contra hne
    -- a smaller `q` is exactly a half below, so it is `m - 1`, which is odd
    have hlt : roundHalfEven n d + 1 ≤ m := by omega
    have hlt' : (roundHalfEven n d : ℚ) + 1 ≤ m := by exact_mod_cast hlt
    have hpos : 0 ≤ (n : ℚ) / d - roundHalfEven n d := by linarith
    rw [abs_of_nonneg hpos] at hnear htie
    have heq : roundHalfEven n d + 1 = m := by
      have : (m : ℚ) ≤ roundHalfEven n d + 1 := by linarith
      exact_mod_cast le_antisymm hlt' this
    have hodd := htie (by linarith)
    rw [← heq] at hm
    exact Nat.not_even_iff_odd.2 (Even.add_one hodd) hm

/-! ## Ratios as rationals -/

theorem two_zpow_eq (t : Int) : (2 : ℚ) ^ t = 2 ^ t.toNat / 2 ^ (-t).toNat := by
  rcases Int.eq_nat_or_neg t with ⟨m, rfl | rfl⟩
  · simp
  · simp

theorem ratio_lt_two_zpow_iff {num den : Nat} (hd : 0 < den) (t : Int) :
    (num : ℚ) / den < 2 ^ t ↔ num * Nat.pow 2 (-t).toNat < den * Nat.pow 2 t.toNat := by
  rw [two_zpow_eq, div_lt_div_iff₀ (by exact_mod_cast hd) (by positivity), Nat.pow_eq,
    Nat.pow_eq, mul_comm (2 ^ t.toNat : ℚ)]
  norm_cast

/-- `scaleRatio num den s` is the ratio `num / den * 2^s`. -/
theorem scaleRatio_value (num den : Nat) (s : Int) :
    ((scaleRatio num den s).1 : ℚ) / (scaleRatio num den s).2 = (num : ℚ) / den * 2 ^ s := by
  rw [scaleRatio_eq, two_zpow_eq, Nat.pow_eq, Nat.pow_eq]
  push_cast
  exact mul_div_mul_comm _ _ _ _

/-- The ratio is at least `2 ^ floorLog2Ratio num den`: either the test says so, or the
exponent is one below `⌊log₂ num⌋ - ⌊log₂ den⌋`, where it holds for any `num` and `den`. -/
theorem le_floorLog2Ratio {num den : Nat} (hn : num ≠ 0) :
    den * Nat.pow 2 (floorLog2Ratio num den).toNat ≤ num * Nat.pow 2 (-(floorLog2Ratio num den)).toNat := by
  unfold floorLog2Ratio
  dsimp only
  split
  · rename_i hge
    unfold ratioGePow2 at hge
    split at hge
    · rw [show (-((Nat.log2 num : Int) - Nat.log2 den)).toNat = 0 by omega]
      simp only [Nat.pow_eq, decide_eq_true_eq] at hge
      simpa using hge
    · rw [show ((Nat.log2 num : Int) - Nat.log2 den).toNat = 0 by omega]
      simp only [Nat.pow_eq, decide_eq_true_eq] at hge
      simpa using hge
  · -- `den < 2 ^ (log₂ den + 1)` and `2 ^ log₂ num ≤ num` meet at `2 ^ max (log₂ den + 1) (log₂ num)`
    calc den * 2 ^ ((Nat.log2 num : Int) - Nat.log2 den - 1).toNat
        ≤ 2 ^ (Nat.log2 den + 1) * 2 ^ ((Nat.log2 num : Int) - Nat.log2 den - 1).toNat :=
          Nat.mul_le_mul_right _ (Nat.le_of_lt Nat.lt_log2_self)
      _ = 2 ^ Nat.log2 num * 2 ^ (-((Nat.log2 num : Int) - Nat.log2 den - 1)).toNat := by
          rw [← Nat.pow_add, ← Nat.pow_add]
          congr 1
          omega
      _ ≤ num * 2 ^ (-((Nat.log2 num : Int) - Nat.log2 den - 1)).toNat :=
          Nat.mul_le_mul_right _ (Nat.log2_self_le hn)

/-- The value `num / den * 2^shift` lies in the binade of `floorLog2Ratio num den + shift`. -/
theorem value_mem_binade {num den : Nat} (hn : num ≠ 0) (hd : den ≠ 0) (shift : Int) :
    (2 : ℚ) ^ (floorLog2Ratio num den + shift) ≤ (num : ℚ) / den * 2 ^ shift ∧
      (num : ℚ) / den * 2 ^ shift < 2 ^ (floorLog2Ratio num den + shift + 1) := by
  have hd' : 0 < den := Nat.pos_of_ne_zero hd
  have hlo : (2 : ℚ) ^ floorLog2Ratio num den ≤ num / den := by
    rw [← not_lt, ratio_lt_two_zpow_iff hd']
    exact Nat.not_lt.2 (le_floorLog2Ratio hn)
  have hhi : (num : ℚ) / den < 2 ^ (floorLog2Ratio num den + 1) :=
    (ratio_lt_two_zpow_iff hd' _).2 (lt_floorLog2Ratio hd)
  have hs : (0 : ℚ) < 2 ^ shift := by positivity
  rw [zpow_add₀ two_ne_zero, add_right_comm, zpow_add₀ two_ne_zero]
  exact ⟨mul_le_mul_of_nonneg_right hlo hs.le, mul_lt_mul_of_pos_right hhi hs⟩

/-! ## Nearest on the grid -/

theorem abs_mul_zpow_sub (k r : ℚ) (u : Int) : |k * 2 ^ u - r| = 2 ^ u * |r / 2 ^ u - k| := by
  have hp : (0 : ℚ) < 2 ^ u := by positivity
  rw [abs_sub_comm, show r - k * 2 ^ u = 2 ^ u * (r / 2 ^ u - k) by field_simp, abs_mul,
    abs_of_pos hp]

/-- When `q` is within a half of `r / 2^u`, a half only if even, and every number off the grid
of multiples of `2^u` lies below `2^(u + 52) ≤ r`, then `q * 2^u` is a magnitude nearest `r`,
and another as near forces `q` even. -/
theorem nearest_magnitude {r : ℚ} {q : Nat} {u : Int}
    (hnear : 2 * |r / 2 ^ u - q| ≤ 1) (htie : 2 * |r / 2 ^ u - q| = 1 → Even q)
    (hlow : -1074 < u → 2 ^ (u + 52) ≤ r) (y : Binary64) :
    |(q : ℚ) * 2 ^ u - r| ≤ |y.magnitude - r| ∧
      (|y.magnitude - r| = |(q : ℚ) * 2 ^ u - r| → y.magnitude ≠ q * 2 ^ u → Even q) := by
  have hp : (0 : ℚ) < 2 ^ u := by positivity
  by_cases hu : u ≤ y.exponent
  · -- on the grid: `k` units
    obtain ⟨k, hk⟩ := magnitude_mem_grid y hu
    obtain ⟨hle, heq⟩ := abs_sub_le_of_two_mul_abs_le hnear k
    rw [hk, abs_mul_zpow_sub, abs_mul_zpow_sub]
    refine ⟨mul_le_mul_of_nonneg_left hle hp.le, fun h hne => htie (heq (mul_left_cancel₀ hp.ne' h) ?_)⟩
    rintro rfl
    exact hne rfl
  · -- below the grid, where `2^52` units are nearer still
    have hr := hlow (by have := exponent_ge y; omega)
    have hy : y.magnitude < 2 ^ (u + 52) :=
      (magnitude_lt y).trans_le (zpow_le_zpow_right₀ (by norm_num) (by omega))
    have h52 : ((2 ^ 52 : Nat) : ℚ) * 2 ^ u = 2 ^ (u + 52) := by
      rw [zpow_add₀ two_ne_zero, mul_comm]
      norm_num
    have hmain : |(q : ℚ) * 2 ^ u - r| ≤ r - 2 ^ (u + 52) :=
      calc |(q : ℚ) * 2 ^ u - r| = 2 ^ u * |r / 2 ^ u - q| := abs_mul_zpow_sub _ _ _
        _ ≤ 2 ^ u * |r / 2 ^ u - ((2 ^ 52 : Nat) : ℚ)| :=
          mul_le_mul_of_nonneg_left (abs_sub_le_of_two_mul_abs_le hnear _).1 hp.le
        _ = |((2 ^ 52 : Nat) : ℚ) * 2 ^ u - r| := (abs_mul_zpow_sub _ _ _).symm
        _ = r - 2 ^ (u + 52) := by rw [h52, abs_of_nonpos (by linarith), neg_sub]
    have hstrict : |(q : ℚ) * 2 ^ u - r| < |y.magnitude - r| := by
      rw [abs_of_neg (by linarith : y.magnitude - r < 0)]
      linarith
    exact ⟨hstrict.le, fun h _ => absurd h hstrict.ne'⟩

/-! ## The specification -/

/-- `2^1024 - 2^970`, halfway between the largest finite number `(2^53 - 1) * 2^971` and
`2^1024`: from here up a number rounds to infinity. -/
def overflowThreshold : ℚ := 2 ^ 1024 - 2 ^ 970

/-- `x` is the magnitude `r` with the sign `neg`, rounded to the nearest binary64 number, ties to
even (IEEE 754 §4.3.1): infinity of that sign from `overflowThreshold` up; below it a finite
number of that sign, no farther from the signed value than any finite number, and of even
significand when a finite number of another value is as near. -/
structure RoundsTo (neg : Bool) (r : ℚ) (x : Binary64) : Prop where
  overflow : overflowThreshold ≤ r → x = infinity neg
  finite : r < overflowThreshold → x.isFinite = true
  sign : r < overflowThreshold → x.sign = neg
  nearest : r < overflowThreshold → ∀ y : Binary64, y.isFinite = true →
    |x.toRat - signedValue neg r| ≤ |y.toRat - signedValue neg r|
  tiesToEven : r < overflowThreshold → ∀ y : Binary64, y.isFinite = true →
    |y.toRat - signedValue neg r| = |x.toRat - signedValue neg r| → y.toRat ≠ x.toRat →
      Even x.significand

theorem overflowThreshold_eq : overflowThreshold = (2 ^ 53 - 1 / 2) * 2 ^ (971 : Int) := by
  rw [overflowThreshold, zpow_ofNat, show (2 : ℚ) ^ 1024 = 2 ^ 53 * 2 ^ 971 by rw [← pow_add],
    pow_succ 2 970]
  generalize (2 : ℚ) ^ 970 = a
  ring

theorem two_zpow_lt_overflowThreshold : (2 : ℚ) ^ (1023 : Int) < overflowThreshold := by
  rw [overflowThreshold_eq, show (1023 : Int) = 52 + 971 by norm_num, zpow_add₀ two_ne_zero]
  exact mul_lt_mul_of_pos_right (by norm_num) (by positivity)

theorem overflowThreshold_lt_two_zpow : overflowThreshold < 2 ^ (1024 : Int) := by
  rw [overflowThreshold_eq, show (1024 : Int) = 53 + 971 by norm_num, zpow_add₀ two_ne_zero]
  exact mul_lt_mul_of_pos_right (by norm_num) (by positivity)

/-! ## Negation -/

theorem sign_negate (x : Binary64) : x.negate.sign = !x.sign := by
  have hlt := x.bits.toNat_lt
  have hdiv : (x.bits ^^^ 0x8000000000000000).toNat / 2 ^ 63 = x.bits.toNat / 2 ^ 63 ^^^ 1 := by
    rw [UInt64.toNat_xor, Nat.xor_div_two_pow]
    rfl
  have hle : ∀ n : Nat, decide (Nat.pow 2 63 ≤ n) = decide (1 ≤ n / 2 ^ 63) := fun n =>
    decide_eq_decide.2 (by rw [Nat.le_div_iff_mul_le (by decide), Nat.one_mul]; rfl)
  -- the sign is the top bit, the quotient by `2^63`
  have hq : x.bits.toNat / 2 ^ 63 = 0 ∨ x.bits.toNat / 2 ^ 63 = 1 := by omega
  unfold sign negate
  rw [hle, hle, hdiv]
  rcases hq with h | h <;> rw [h] <;> decide

theorem fraction_negate (x : Binary64) : x.negate.fraction = x.fraction := by
  have hsign : (0x8000000000000000 : UInt64).toNat % 2 ^ 52 = 0 := by decide
  unfold fraction negate
  rw [UInt64.toNat_xor, show Nat.pow 2 52 = 2 ^ 52 from rfl, Nat.xor_mod_two_pow, hsign, Nat.xor_zero]

theorem significand_negate (x : Binary64) : x.negate.significand = x.significand := by
  unfold significand
  rw [biased_negate, fraction_negate]

theorem magnitude_negate (x : Binary64) : x.negate.magnitude = x.magnitude := by
  unfold magnitude exponent
  rw [significand_negate, biased_negate]

theorem signedValue_not (neg : Bool) (r : ℚ) : signedValue (!neg) r = -signedValue neg r := by
  cases neg <;> simp [signedValue]

theorem toRat_negate (x : Binary64) : x.negate.toRat = -x.toRat := by
  rw [toRat, toRat, sign_negate, magnitude_negate, signedValue_not]

theorem infinity_negate (neg : Bool) : (infinity neg).negate = infinity (!neg) := by
  cases neg <;> decide

/-- Negating a number and its target together keeps their distance. -/
theorem abs_neg_sub_signedValue (a : ℚ) (neg : Bool) (r : ℚ) :
    |-a - signedValue (!neg) r| = |a - signedValue neg r| := by
  rw [signedValue_not, neg_sub_neg, abs_sub_comm]

/-- Rounding commutes with negation: the negated number rounds the same magnitude with the
other sign. -/
theorem RoundsTo.negate {neg : Bool} {r : ℚ} {x : Binary64} (h : RoundsTo neg r x) :
    RoundsTo (!neg) r x.negate where
  overflow hT := by rw [h.overflow hT, infinity_negate]
  finite hT := by rw [isFinite_negate]; exact h.finite hT
  sign hT := by rw [sign_negate, h.sign hT]
  nearest hT y hy := by
    -- the competitor `y` against the negated target is `-y` against the target
    have hy' := h.nearest hT y.negate (by rw [isFinite_negate]; exact hy)
    rw [toRat_negate] at hy'
    rw [toRat_negate, abs_neg_sub_signedValue, ← neg_neg y.toRat, abs_neg_sub_signedValue]
    exact hy'
  tiesToEven hT y hy htie hne := by
    rw [significand_negate]
    refine h.tiesToEven hT y.negate (by rw [isFinite_negate]; exact hy) ?_ ?_
    · rw [toRat_negate]
      rw [toRat_negate, ← neg_neg y.toRat, abs_neg_sub_signedValue, abs_neg_sub_signedValue] at htie
      exact htie
    · rw [toRat_negate]
      rw [toRat_negate] at hne
      exact fun h' => hne (by rw [← h', neg_neg])

/-- A nearest magnitude of the right sign is a nearest value: a value of the other sign is as
far as zero at best, and zero is a magnitude too. -/
theorem nearest_signed {neg : Bool} {r : ℚ} {x : Binary64} (hr : 0 ≤ r) (hsign : x.sign = neg)
    (hmag : ∀ y : Binary64, |x.magnitude - r| ≤ |y.magnitude - r| ∧
      (|y.magnitude - r| = |x.magnitude - r| → y.magnitude ≠ x.magnitude → Even x.significand))
    (y : Binary64) :
    |x.toRat - signedValue neg r| ≤ |y.toRat - signedValue neg r| ∧
      (|y.toRat - signedValue neg r| = |x.toRat - signedValue neg r| → y.toRat ≠ x.toRat →
        Even x.significand) := by
  have h0 := hmag zero
  rw [magnitude_zero, zero_sub, abs_neg, abs_of_nonneg hr] at h0
  rw [toRat, hsign, abs_signedValue_sub]
  by_cases hy : y.sign = neg
  · rw [toRat, hy, abs_signedValue_sub]
    refine ⟨(hmag y).1, fun h hne => (hmag y).2 h fun hm => hne ?_⟩
    rw [hm]
  · have hy' : y.sign = !neg := by
      cases neg <;> simpa using hy
    have hm := magnitude_nonneg y
    rw [toRat, hy', abs_signedValue_not_sub hm hr]
    refine ⟨by linarith [h0.1], fun h hne => ?_⟩
    -- as near only when `y` is a zero and `x` is as far as zero
    have hy0 : y.magnitude = 0 := by linarith [h0.1]
    by_cases hx0 : x.magnitude = 0
    · exact absurd (by rw [hy0, hx0, signedValue_zero, signedValue_zero]) hne
    · exact h0.2 (by linarith) (Ne.symm hx0)

/-- `RoundsTo` from the magnitude alone: overflow, and below it a finite number of the right
sign whose magnitude is nearest, ties to even. -/
theorem roundsTo_of_magnitude {neg : Bool} {r : ℚ} {x : Binary64} (hr : 0 ≤ r)
    (hover : overflowThreshold ≤ r → x = infinity neg)
    (hfin : r < overflowThreshold → x.isFinite = true ∧ x.sign = neg ∧ ∀ y : Binary64,
      |x.magnitude - r| ≤ |y.magnitude - r| ∧
        (|y.magnitude - r| = |x.magnitude - r| → y.magnitude ≠ x.magnitude → Even x.significand)) :
    RoundsTo neg r x where
  overflow := hover
  finite h := (hfin h).1
  sign h := (hfin h).2.1
  nearest h y _ := (nearest_signed hr (hfin h).2.1 (hfin h).2.2 y).1
  tiesToEven h y _ := (nearest_signed hr (hfin h).2.1 (hfin h).2.2 y).2

theorem roundsTo_infinity {neg : Bool} {r : ℚ} (h : overflowThreshold ≤ r) :
    RoundsTo neg r (infinity neg) where
  overflow _ := rfl
  finite h' := absurd h' (not_lt.2 h)
  sign h' := absurd h' (not_lt.2 h)
  nearest h' := absurd h' (not_lt.2 h)
  tiesToEven h' := absurd h' (not_lt.2 h)

/-- Below half the smallest subnormal, the nearest number is zero. -/
theorem roundsTo_signedZero {neg : Bool} {r : ℚ} (hr : 0 ≤ r) (hsmall : 2 * r < 2 ^ (-1074 : Int)) :
    RoundsTo neg r (signedZero neg) := by
  have hT : 2 ^ (-1074 : Int) < overflowThreshold :=
    lt_trans (zpow_lt_zpow_right₀ (by norm_num) (by norm_num)) two_zpow_lt_overflowThreshold
  refine roundsTo_of_magnitude hr (fun h => absurd h (by linarith)) fun _ =>
    ⟨isFinite_signedZero neg, sign_signedZero neg, fun y => ?_⟩
  rw [magnitude_signedZero]
  rcases magnitude_eq_zero_or y with h0 | hge
  · rw [h0]
    exact ⟨le_rfl, fun _ h => absurd rfl h⟩
  · have hstrict : |0 - r| < |y.magnitude - r| := by
      rw [zero_sub, abs_neg, abs_of_nonneg hr, abs_of_nonneg (by linarith)]
      linarith
    exact ⟨hstrict.le, fun h _ => absurd h hstrict.ne'⟩

/-! ## Rounded ratios -/

/-- The carried exponent lies between the unit and one above it. -/
theorem carriedExp_bounds (q : Nat) (u : Int) : u ≤ carriedExp q u ∧ carriedExp q u ≤ u + 1 := by
  unfold carriedExp
  split <;> omega

/-- The exponent is carried exactly from a significand of `2^53`. -/
theorem lt_carriedExp_iff (q : Nat) (u : Int) : u < carriedExp q u ↔ q = Nat.pow 2 53 := by
  unfold carriedExp
  split
  · rename_i h
    exact ⟨fun _ => h, fun _ => by omega⟩
  · rename_i h
    exact ⟨fun h' => absurd h' (Int.lt_irrefl u), fun h' => absurd h' h⟩

theorem scaleRatio_den_pos {den : Nat} (hd : den ≠ 0) (num : Nat) (s : Int) :
    0 < (scaleRatio num den s).2 := by
  rw [scaleRatio_eq]
  exact Nat.mul_pos (Nat.pos_of_ne_zero hd) (Nat.two_pow_pos _)

/-- The value in units of `2 ^ unitExp` is the scaled ratio that `roundedSig` rounds. -/
theorem ratio_div_unit (num den : Nat) (shift : Int) :
    (num : ℚ) / den * 2 ^ shift / 2 ^ unitExp num den shift =
      ((scaleRatio num den (shift - unitExp num den shift)).1 : ℚ) /
        (scaleRatio num den (shift - unitExp num den shift)).2 := by
  rw [scaleRatio_value, zpow_sub₀ two_ne_zero, mul_div_assoc]

theorem two_mul_abs_sub_roundedSig {num den : Nat} (hd : den ≠ 0) (shift : Int) :
    2 * |(num : ℚ) / den * 2 ^ shift / 2 ^ unitExp num den shift - roundedSig num den shift| ≤ 1 ∧
      (2 * |(num : ℚ) / den * 2 ^ shift / 2 ^ unitExp num den shift - roundedSig num den shift| = 1 →
        Even (roundedSig num den shift)) := by
  rw [ratio_div_unit]
  exact two_mul_abs_sub_roundHalfEven (scaleRatio_den_pos hd _ _)

/-- The rounded significand carries past the top exponent exactly from `overflowThreshold` up:
below the top binade the unit is at most `2^970`, above it at least `2^972`, and in it the unit
is `2^971` and the significand carries to `2^53` from `2^53 - 1/2` units up. -/
theorem overflow_iff {num den : Nat} (hn : num ≠ 0) (hd : den ≠ 0) (shift : Int) :
    971 < carriedExp (roundedSig num den shift) (unitExp num den shift) ↔
      overflowThreshold ≤ (num : ℚ) / den * 2 ^ shift := by
  obtain ⟨hlo, hhi⟩ := value_mem_binade hn hd shift
  obtain ⟨hc1, hc2⟩ := carriedExp_bounds (roundedSig num den shift) (unitExp num den shift)
  have hT1 := two_zpow_lt_overflowThreshold
  have hT2 := overflowThreshold_lt_two_zpow
  rcases lt_trichotomy (floorLog2Ratio num den + shift) 1023 with hlt | heq | hgt
  · -- below the top binade
    have hu : unitExp num den shift ≤ 970 := by
      unfold unitExp
      omega
    have hr : (num : ℚ) / den * 2 ^ shift < 2 ^ (1023 : Int) :=
      hhi.trans_le (zpow_le_zpow_right₀ (by norm_num) (by omega))
    exact ⟨fun h => absurd h (by omega), fun h => absurd h (by linarith)⟩
  · -- the top binade, in units of `2^971`
    have hu : unitExp num den shift = 971 := by
      unfold unitExp
      omega
    rw [heq] at hhi
    have hp : (0 : ℚ) < 2 ^ (971 : Int) := by positivity
    have hx : (num : ℚ) / den * 2 ^ shift / 2 ^ unitExp num den shift < ((Nat.pow 2 53 : Nat) : ℚ) := by
      rw [hu, div_lt_iff₀ hp, Nat.pow_eq, Nat.cast_pow, Nat.cast_ofNat, ← zpow_natCast,
        ← zpow_add₀ two_ne_zero]
      exact hhi
    have hq : roundedSig num den shift = Nat.pow 2 53 ↔
        ((Nat.pow 2 53 : Nat) : ℚ) - 1 / 2 ≤ (num : ℚ) / den * 2 ^ shift / 2 ^ unitExp num den shift := by
      rw [ratio_div_unit] at hx ⊢
      exact roundHalfEven_eq_iff (scaleRatio_den_pos hd _ _) (Nat.even_iff.2 (by decide))
        (roundedSig_le hd shift) hx
    have h53 : ((Nat.pow 2 53 : Nat) : ℚ) = 2 ^ 53 := by
      rw [Nat.pow_eq, Nat.cast_pow, Nat.cast_ofNat]
    rw [hu, h53] at hq
    rw [hu, lt_carriedExp_iff, overflowThreshold_eq, ← le_div_iff₀ hp]
    exact hq
  · -- above the top binade
    have hu : 972 ≤ unitExp num den shift := by
      unfold unitExp
      omega
    have hr : (2 : ℚ) ^ (1024 : Int) ≤ (num : ℚ) / den * 2 ^ shift :=
      le_trans (zpow_le_zpow_right₀ (by norm_num) (by omega)) hlo
    exact ⟨fun _ => by linarith, fun _ => by omega⟩

/-- Above the smallest unit, the unit is 52 bits below the leading one. -/
theorem two_zpow_unit_le {num den : Nat} (hn : num ≠ 0) (hd : den ≠ 0) {shift : Int}
    (h : -1074 < unitExp num den shift) :
    (2 : ℚ) ^ (unitExp num den shift + 52) ≤ (num : ℚ) / den * 2 ^ shift := by
  have hu : unitExp num den shift + 52 = floorLog2Ratio num den + shift := by
    unfold unitExp at h ⊢
    omega
  rw [hu]
  exact (value_mem_binade hn hd shift).1

/-- Above the smallest unit, the rounded significand has 53 bits. -/
theorem roundedSig_normal {num den : Nat} (hn : num ≠ 0) (hd : den ≠ 0) {shift : Int}
    (h : -1074 < unitExp num den shift) : Nat.pow 2 52 ≤ roundedSig num den shift := by
  have ht : (2 : ℚ) ^ 52 ≤ (num : ℚ) / den * 2 ^ shift / 2 ^ unitExp num den shift := by
    rw [le_div_iff₀ (by positivity), ← zpow_natCast, ← zpow_add₀ two_ne_zero, add_comm]
    exact two_zpow_unit_le hn hd h
  have hq : (2 : ℚ) ^ 52 < roundedSig num den shift + 1 := by
    have hnear := (@two_mul_abs_sub_roundedSig num den hd shift).1
    have := (abs_le.1 (show |(num : ℚ) / den * 2 ^ shift / 2 ^ unitExp num den shift -
      roundedSig num den shift| ≤ 1 / 2 by linarith)).2
    linarith
  have : 2 ^ 52 < roundedSig num den shift + 1 := by exact_mod_cast hq
  simp only [Nat.pow_eq]
  omega

/-- Below the overflow threshold, the rounded ratio is the finite number `±q * 2^u` of the
rounded significand `q` in units `2^u`. -/
theorem roundRatio_finite {num den : Nat} (hn : num ≠ 0) (hd : den ≠ 0) (neg : Bool) {shift : Int}
    (hT : (num : ℚ) / den * 2 ^ shift < overflowThreshold) :
    (roundRatio neg num den shift).isFinite = true ∧ (roundRatio neg num den shift).sign = neg ∧
      (roundRatio neg num den shift).magnitude =
        roundedSig num den shift * 2 ^ unitExp num den shift ∧
      (roundRatio neg num den shift).significand % 2 = roundedSig num den shift % 2 := by
  rw [roundRatio_eq_pack (by omega)]
  exact pack_finite (roundedSig_le hd shift) (le_max_right _ _) (roundedSig_normal hn hd)
    (not_lt.1 (mt (overflow_iff hn hd shift).1 (not_le.2 hT)))

/-- **Correct rounding.** `roundRatio neg num den shift` is the value `num / den * 2^shift`, with
the sign `neg`, rounded to nearest, ties to even, overflowing to infinity and underflowing to a
zero of that sign. -/
theorem roundRatio_roundsTo (neg : Bool) (num den : Nat) (shift : Int) :
    RoundsTo neg ((num : ℚ) / den * 2 ^ shift) (roundRatio neg num den shift) := by
  by_cases hz : num = 0 ∨ den = 0
  · have hr : (num : ℚ) / den * 2 ^ shift = 0 := by
      rcases hz with h | h <;> simp [h]
    rw [roundRatio, if_pos hz, hr]
    exact roundsTo_signedZero le_rfl (by rw [mul_zero]; positivity)
  have hn : num ≠ 0 := fun h => hz (.inl h)
  have hd : den ≠ 0 := fun h => hz (.inr h)
  obtain ⟨hnear, htie⟩ := @two_mul_abs_sub_roundedSig num den hd shift
  refine roundsTo_of_magnitude (by positivity) (fun hT => ?_) fun hT => ?_
  · rw [roundRatio_eq_pack hz]
    exact pack_infinite ((overflow_iff hn hd shift).2 hT)
  obtain ⟨hfin, hsign, hmag, hpar⟩ := roundRatio_finite hn hd neg hT
  refine ⟨hfin, hsign, fun y => ?_⟩
  rw [hmag, Nat.even_iff, hpar, ← Nat.even_iff]
  exact nearest_magnitude hnear htie (two_zpow_unit_le hn hd) y

/-- From the least normal power `2^-1022` up to the overflow threshold, rounding moves a value by
at most `2^-53` of it: half a unit, and the unit is `2^-52` of the leading power of two. -/
theorem abs_magnitude_roundRatio_sub {num den : Nat} (neg : Bool) {shift : Int}
    (hT : (num : ℚ) / den * 2 ^ shift < overflowThreshold)
    (hnorm : (2 : ℚ) ^ (-1022 : Int) ≤ (num : ℚ) / den * 2 ^ shift) :
    |(roundRatio neg num den shift).magnitude - (num : ℚ) / den * 2 ^ shift| ≤
      (num : ℚ) / den * 2 ^ shift / 2 ^ 53 := by
  have hpos : (0 : ℚ) < (num : ℚ) / den * 2 ^ shift := lt_of_lt_of_le (by positivity) hnorm
  have hn : num ≠ 0 := by
    rintro rfl
    simp at hpos
  have hd : den ≠ 0 := by
    rintro rfl
    simp at hpos
  obtain ⟨-, -, hmag, -⟩ := roundRatio_finite hn hd neg hT
  have hnear := (@two_mul_abs_sub_roundedSig num den hd shift).1
  -- the smallest unit too is `2^-52` of the least normal power
  have hunit : (2 : ℚ) ^ (unitExp num den shift + 52) ≤ (num : ℚ) / den * 2 ^ shift := by
    by_cases hu : -1074 < unitExp num den shift
    · exact two_zpow_unit_le hn hd hu
    · have hu0 : -1074 ≤ unitExp num den shift := le_max_right _ _
      rwa [show unitExp num den shift + 52 = -1022 by omega]
  calc |(roundRatio neg num den shift).magnitude - (num : ℚ) / den * 2 ^ shift|
      = 2 ^ unitExp num den shift *
          |(num : ℚ) / den * 2 ^ shift / 2 ^ unitExp num den shift - roundedSig num den shift| := by
        rw [hmag, abs_mul_zpow_sub]
    _ ≤ 2 ^ unitExp num den shift * (1 / 2) := by gcongr; linarith
    _ = 2 ^ (unitExp num den shift + 52) / 2 ^ 53 := by
        rw [zpow_add₀ two_ne_zero]
        norm_num
        ring
    _ ≤ (num : ℚ) / den * 2 ^ shift / 2 ^ 53 := by gcongr

/-- The value `ofNat n` rounds: `n` itself. -/
theorem ofNat_value (n : Nat) : (n : ℚ) / (1 : Nat) * 2 ^ (0 : Int) = n := by
  rw [Nat.cast_one, div_one, zpow_zero, mul_one]

/-- A natural number is rounded to the nearest binary64 number. -/
theorem roundsTo_ofNat (n : Nat) : RoundsTo false n (ofNat n) := by
  have h := roundRatio_roundsTo false n 1 0
  rwa [ofNat_value] at h

/-- A natural number from one up to the overflow threshold is rounded by at most `2^-53` of it. -/
theorem abs_magnitude_ofNat_sub {n : Nat} (hn : 1 ≤ n) (hT : (n : ℚ) < overflowThreshold) :
    |(ofNat n).magnitude - n| ≤ n / 2 ^ 53 := by
  have h1 : (2 : ℚ) ^ (-1022 : Int) ≤ n :=
    le_trans (zpow_le_one_of_nonpos₀ (by norm_num) (by norm_num)) (by exact_mod_cast hn)
  have h := @abs_magnitude_roundRatio_sub n 1 false 0 (by rwa [ofNat_value])
    (by rwa [ofNat_value])
  rwa [ofNat_value] at h

/-- The value a product rounds: the product of the magnitudes. -/
theorem mul_value (x y : Binary64) :
    ((x.significand * y.significand : Nat) : ℚ) / (1 : Nat) * 2 ^ (x.exponent + y.exponent) =
      x.magnitude * y.magnitude := by
  rw [magnitude, magnitude, Nat.cast_mul, Nat.cast_one, div_one, zpow_add₀ two_ne_zero]
  ring

/-- A product is the product of the magnitudes rounded, with the sign of the signs' difference. -/
theorem roundsTo_mul (x y : Binary64) :
    RoundsTo (x.sign != y.sign) (x.magnitude * y.magnitude) (x.mul y) := by
  have h := roundRatio_roundsTo (x.sign != y.sign) (x.significand * y.significand) 1
    (x.exponent + y.exponent)
  rwa [mul_value] at h

/-- A product of magnitudes from `2^-1022` up to the overflow threshold is rounded by at most
`2^-53` of it. -/
theorem abs_magnitude_mul_sub (x y : Binary64) (hT : x.magnitude * y.magnitude < overflowThreshold)
    (hnorm : (2 : ℚ) ^ (-1022 : Int) ≤ x.magnitude * y.magnitude) :
    |(x.mul y).magnitude - x.magnitude * y.magnitude| ≤ x.magnitude * y.magnitude / 2 ^ 53 := by
  have h := @abs_magnitude_roundRatio_sub (x.significand * y.significand) 1 (x.sign != y.sign)
    (x.exponent + y.exponent) (by rwa [mul_value]) (by rwa [mul_value])
  rwa [mul_value] at h

theorem isInfinite_eq_false {x : Binary64} (h : x.isFinite = true) : x.isInfinite = false := by
  unfold isFinite at h
  unfold isInfinite
  simp only [bne_iff_ne, ne_eq] at h
  simp [h]

end HandlerKit.Binary64
