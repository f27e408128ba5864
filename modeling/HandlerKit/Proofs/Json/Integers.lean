import HandlerKit.Proofs.Json.Nesting
import HandlerKit.Proofs.Tnetstring.Bounds
import HandlerKit.Proofs.FloatText

/-!
# Integer literals at the limits of 64 bits

A JSON number with no fraction and no exponent is read digit by digit into a 64-bit significand.
Where it lands depends on its sign and on where the significand overflows.

**Below `2^64`** (`number_decimal_append`). The digits make a whole number `m`. Without a sign
it is an integer up to `2^63 - 1` and out of range from `2^63` on; with a minus sign it is an
integer down to `-2^63`, and a float beyond that, and for `-0`.

**From `2^64` up** (`number_decimal_long`). The reader keeps the leading digits while they stay
below `2^64`, so the significand is `m / 10^k` for the fewest dropped digits `k`, and each
dropped digit raises the exponent. The float is then formed in binary64 steps
(`fromParts_nonneg`): the significand rounded, times `10^k` rounded, the product rounded; out of
range when that product is infinite. Rounding three times, this product can overflow although
`m` itself is below the overflow threshold: the literal of the largest finite number, `2^1024 -
2^971`, is out of range.

**How near** (`stepwise_near`, `stepwise_overflow`). Each rounding moves a value by at most
`2^-53` of it (`abs_magnitude_roundRatio_sub`), and the dropped digits are less than `2^-60` of
`m`; so the product is finite and within `2^-51` of `m` when `m` is more than `2^-51` of the
threshold below it, and infinite when `m` is as far above it.

**Theorem (`integer_literal_read`).** The five outcomes, for a literal followed by anything
that may end a value, with the bounds on the last.
-/

namespace HandlerKit.Json

open Binary64

/-- A JSON integer literal: an optional minus sign, then the digits of `m` with no leading zero. -/
def integerLiteral (neg : Bool) (m : Nat) : Bytes := (if neg then [45] else []) ++ Reply.decimal m

/-! ## Digit runs -/

/-- Digits after `acc`: the earlier ones shift by the count of the later ones. -/
theorem foldl_digitValue (acc : Nat) (ds : Bytes) :
    ds.foldl (fun a b => a * 10 + digitValue b) acc =
      acc * 10 ^ ds.length + ds.foldl (fun a b => a * 10 + digitValue b) 0 :=
  FloatText.foldl_digits acc ds

/-- The leading digits of a run read as the run's value without its last digits. -/
theorem foldl_digitValue_div {A B : Bytes} (hB : ∀ b ∈ B, isDigit b = true) :
    A.foldl (fun a b => a * 10 + digitValue b) 0 =
      (A ++ B).foldl (fun a b => a * 10 + digitValue b) 0 / 10 ^ B.length := by
  have hlt : B.foldl (fun a b => a * 10 + digitValue b) 0 < 10 ^ B.length :=
    Tnetstring.digitsValue_lt_pow hB
  rw [List.foldl_append, foldl_digitValue _ B, Nat.add_comm, Nat.add_mul_div_right _ _ (by positivity),
    Nat.div_eq_of_lt hlt, Nat.zero_add]

section Reading

variable {positive : Bool}

/-- Whole digits whose value stays below `2^64` are taken into the significand. -/
theorem wholeDigits_append (r : Bytes) :
    ∀ (ds : Bytes) (sig : Nat), (∀ b ∈ ds, isDigit b = true) →
      ds.foldl (fun a b => a * 10 + digitValue b) sig < Nat.pow 2 64 →
      (wholeDigits positive sig (ds ++ r)).out =
        (wholeDigits positive (ds.foldl (fun a b => a * 10 + digitValue b) sig) r).out
  | [], _, _, _ => rfl
  | b :: ds, sig, hd, hlt => by
    rw [List.foldl_cons] at hlt ⊢
    have hle := le_foldl_digits ds (sig * 10 + digitValue b)
    rw [List.cons_append, wholeDigits, if_pos (hd b List.mem_cons_self), if_neg (by omega), out_widen]
    exact wholeDigits_append r ds _ (fun x hx => hd x (List.mem_cons_of_mem b hx)) hlt

/-- The digit that takes the significand to `2^64` hands the rest to `longWhole`. -/
theorem wholeDigits_overflow {q : UInt8} {r : Bytes} {sig : Nat} (hq : isDigit q = true)
    (hover : Nat.pow 2 64 ≤ sig * 10 + digitValue q) :
    (wholeDigits positive sig (q :: r)).out =
      (longWhole positive sig 0 (q :: r)).out.map fun p => (.float p.1, p.2) := by
  rw [wholeDigits, if_pos hq, if_pos hover, out_map]

/-- Digits beyond the significand each raise the exponent; where the value ends, the float is
formed. -/
theorem longWhole_append {s : Bytes} (hs : Ends s) (sig : Nat) :
    ∀ (ds : Bytes) (e : Nat), (∀ b ∈ ds, isDigit b = true) →
      (longWhole positive sig e (ds ++ s)).out = (finishFloat positive sig (e + ds.length : Nat) s).out
  | [], e, _ => by
    cases s with
    | nil => rfl
    | cons c s =>
      obtain ⟨hd, hp, he⟩ := hs.not_number
      rw [List.nil_append, longWhole, if_neg (by simp [hd]), if_neg hp, if_neg (by simp [he])]
      rfl
  | b :: ds, e, hd => by
    rw [List.cons_append, longWhole, if_pos (hd b List.mem_cons_self), out_widen,
      longWhole_append hs sig ds (e + 1) (fun x hx => hd x (List.mem_cons_of_mem b hx)),
      List.length_cons, Nat.add_assoc, Nat.add_comm 1]

end Reading

/-- The float of a significand and an exponent `k ≥ 0`: the stepwise product, out of range when
it is infinite or `k` is past `308`. -/
theorem fromParts_nonneg {positive : Bool} {sig : Nat} (hsig : 4 ≤ sig) (k : Nat) (r : Bytes) :
    fromParts positive sig k r =
      if k < 309 ∧ ((ofNat sig).mul (pow10 k)).isInfinite = false then
        .ok (if positive then (ofNat sig).mul (pow10 k) else ((ofNat sig).mul (pow10 k)).negate)
      else .error (stopAt .numberOutOfRange r) := by
  unfold fromParts
  rw [fromParts.scale]
  by_cases hk : k < 309
  · rw [if_pos (by simpa using hk), if_pos (by omega)]
    dsimp only
    by_cases hinf : ((ofNat sig).mul (pow10 (k : Int).natAbs)).isInfinite = true
    · rw [if_pos hinf, if_neg (by simp_all)]
      rfl
    · rw [if_neg hinf, if_pos ⟨hk, by simpa using hinf⟩]
      cases positive <;> rfl
  · -- a nonzero significand with an exponent past `308` is out of range
    have hz : (ofNat sig).isZero = false := by
      have := biased_ofNat hsig
      unfold isZero
      simp only [Bool.and_eq_false_iff, beq_eq_false_iff_ne]
      exact .inl (by omega)
    rw [if_neg (by simpa using hk), if_neg (by simp [hz]), if_pos (by omega), if_neg (by omega)]
    rfl

/-! ## Reading the digits of a number -/

/-- The digits of a number below `2^64`, before the end of a value: a whole number. -/
theorem number_decimal_append (positive : Bool) {m : Nat} (hm : m < Nat.pow 2 64) {s : Bytes}
    (hs : Ends s) : (number positive (Reply.decimal m ++ s)).out = .ok (wholeNumber positive m, s) :=
  stopsAtEnd_number hs (number_decimal positive hm)

/-- One digit more dropped: a tenth, rounded down, of the lower bound. -/
theorem le_div_ten_pow {m k b : Nat} (hk : 0 < k) (h : b ≤ m / 10 ^ (k - 1)) :
    b / 10 ≤ m / 10 ^ k := by
  rw [show k = k - 1 + 1 by omega, Nat.pow_succ, ← Nat.div_div_eq_div_mul]
  exact Nat.div_le_div_right h

/-- From `2^64` up there is a count `k` of trailing digits whose removal brings the number below
`2^64`, and one digit fewer does not. -/
theorem exists_significand_split {m : Nat} (hm : Nat.pow 2 64 ≤ m) :
    ∃ k : Nat, m / 10 ^ k < Nat.pow 2 64 ∧ Nat.pow 2 64 ≤ m / 10 ^ (k - 1) := by
  have hex : ∃ k, m / 10 ^ k < Nat.pow 2 64 :=
    ⟨m, by rw [Nat.div_eq_of_lt (Nat.lt_pow_self (by decide))]; decide⟩
  have hk0 : Nat.find hex ≠ 0 := fun h0 => by
    have := Nat.find_spec hex
    rw [h0, Nat.pow_zero, Nat.div_one] at this
    omega
  exact ⟨Nat.find hex, Nat.find_spec hex, Nat.not_lt.1 (Nat.find_min hex (by omega))⟩

/-- A split of a number from `2^64` up drops at least one digit. -/
theorem split_pos {m k : Nat} (hlo : m / 10 ^ k < Nat.pow 2 64) (hhi : Nat.pow 2 64 ≤ m / 10 ^ (k - 1)) :
    0 < k := by
  rcases Nat.eq_zero_or_pos k with rfl | hk
  · exact absurd hhi (Nat.not_le.2 hlo)
  · exact hk

/-- The digits of a number read back as that number. -/
theorem foldl_decimal (m : Nat) : (Reply.decimal m).foldl (fun a b => a * 10 + digitValue b) 0 = m :=
  Reply.digitsValue_decimal m

/-- The significand of a split is at least a tenth of `2^64`. -/
theorem div_split_ge {m k : Nat} (hlo : m / 10 ^ k < Nat.pow 2 64)
    (hhi : Nat.pow 2 64 ≤ m / 10 ^ (k - 1)) : Nat.pow 2 64 / 10 ≤ m / 10 ^ k :=
  le_div_ten_pow (split_pos hlo hhi) hhi

/-- The digits of a number from `2^64` up split into the significand's digits, at least one,
and the `k` dropped ones. -/
theorem decimal_split {m k : Nat} (hlo : m / 10 ^ k < Nat.pow 2 64)
    (hhi : Nat.pow 2 64 ≤ m / 10 ^ (k - 1)) :
    ∃ c P q Q, Reply.decimal m = c :: P ++ q :: Q ∧ Q.length + 1 = k ∧
      (c :: P).foldl (fun a b => a * 10 + digitValue b) 0 = m / 10 ^ k := by
  have hdig : ∀ b ∈ Reply.decimal m, isDigit b = true := decimal_isDigit m
  have hlen : m < 10 ^ (Reply.decimal m).length := by
    have h := Tnetstring.digitsValue_lt_pow hdig
    rw [Reply.digitsValue_decimal] at h
    exact h
  have hk0 := split_pos hlo hhi
  -- no more digits are dropped than there are
  have hkn : k ≤ (Reply.decimal m).length := by
    by_contra hk
    have hle : m / 10 ^ (k - 1) ≤ m / 10 ^ (Reply.decimal m).length :=
      Nat.div_le_div_left (Nat.pow_le_pow_right (by decide) (by omega)) (by positivity)
    rw [Nat.div_eq_of_lt hlen] at hle
    exact absurd (Nat.le_trans hhi hle) (by decide)
  obtain ⟨P, Q, hPQ, hQ⟩ : ∃ P Q, P ++ Q = Reply.decimal m ∧ Q.length = k :=
    ⟨_, _, List.take_append_drop ((Reply.decimal m).length - k) _,
      by rw [List.length_drop]; omega⟩
  have hsig : P.foldl (fun a b => a * 10 + digitValue b) 0 = m / 10 ^ k := by
    rw [foldl_digitValue_div fun b hb => hdig b (hPQ ▸ List.mem_append_right P hb), hPQ,
      foldl_decimal, hQ]
  obtain ⟨q, Q', rfl⟩ : ∃ q Q', Q = q :: Q' := List.exists_cons_of_length_pos (by omega)
  -- the significand is at least a tenth of `2^64`, so it has a first digit
  obtain ⟨c, P', rfl⟩ : ∃ c P', P = c :: P' := by
    refine List.exists_cons_of_ne_nil fun hP => ?_
    have hbig := div_split_ge hlo hhi
    rw [← hsig, hP, List.foldl_nil] at hbig
    exact absurd hbig (by decide)
  exact ⟨c, P', q, Q', hPQ.symm, hQ, hsig⟩

/-- The digits of a number from `2^64` up, before the end of a value: the leading digits below
`2^64` are the significand, and each of the `k` digits after them raises the exponent. -/
theorem number_decimal_long (positive : Bool) {m k : Nat} (hlo : m / 10 ^ k < Nat.pow 2 64)
    (hhi : Nat.pow 2 64 ≤ m / 10 ^ (k - 1)) {s : Bytes} (hs : Ends s) :
    (number positive (Reply.decimal m ++ s)).out =
      (fromParts positive (m / 10 ^ k) (k : Int) s).map fun x => (.float x, s) := by
  obtain ⟨c, P, q, Q, hd, hQ, hsig⟩ := decimal_split hlo hhi
  have hdig := decimal_isDigit m
  rw [hd] at hdig
  have hdP : ∀ b ∈ P, isDigit b = true := fun b hb =>
    hdig b (List.mem_append_left _ (List.mem_cons_of_mem c hb))
  have hdQ : ∀ b ∈ q :: Q, isDigit b = true := fun b hb => hdig b (List.mem_append_right _ hb)
  -- one digit fewer dropped is the significand followed by the first dropped digit
  have hnext : (m / 10 ^ k) * 10 + digitValue q = m / 10 ^ (k - 1) := by
    have h := foldl_digitValue_div (A := c :: P ++ [q]) (B := Q)
      fun b hb => hdQ b (List.mem_cons_of_mem q hb)
    rw [List.append_assoc, List.singleton_append, ← hd, foldl_decimal,
      show Q.length = k - 1 by omega, List.foldl_append, hsig] at h
    exact h
  -- the first digit is no zero, for the number is not
  have hc48 : c ≠ 48 := by
    obtain ⟨c0, ds, hcd, h48⟩ := decimal_eq_cons m
    rw [hd, List.cons_append] at hcd
    obtain ⟨rfl, -⟩ := List.cons.inj hcd
    intro h
    have hbig := div_split_ge hlo hhi
    rw [h48 h, Nat.zero_div] at hbig
    exact absurd hbig (by decide)
  have hsig' : P.foldl (fun a b => a * 10 + digitValue b) (digitValue c) = m / 10 ^ k := by
    rw [← hsig, List.foldl_cons, Nat.zero_mul, Nat.zero_add]
  -- the reader: the significand's digits, the overflowing digit, the dropped digits
  rw [hd, List.append_assoc, List.cons_append, number.eq_def]
  dsimp only
  rw [if_neg hc48, if_pos (hdig c List.mem_cons_self), out_widen,
    wholeDigits_append _ P _ hdP (hsig' ▸ hlo), hsig', List.cons_append,
    wholeDigits_overflow (hdQ q List.mem_cons_self) (hnext ▸ hhi), ← List.cons_append,
    longWhole_append hs _ (q :: Q) 0 hdQ, out_finishFloat, Nat.zero_add, List.length_cons, hQ]
  cases fromParts positive (m / 10 ^ k) (k : Int) s <;> rfl

/-! ## How near the stepwise product is -/

/-- Dropping `k` digits loses less than `2^-60` of the number: what is dropped is below `10^k`,
and the significand is above `2^60`. -/
theorem split_value_bounds {m k : Nat} (hlo : m / 10 ^ k < Nat.pow 2 64)
    (hhi : Nat.pow 2 64 ≤ m / 10 ^ (k - 1)) :
    (m : ℚ) * (1 - 1 / 2 ^ 60) ≤ ((m / 10 ^ k : Nat) : ℚ) * ((10 ^ k : Nat) : ℚ) ∧
      ((m / 10 ^ k : Nat) : ℚ) * ((10 ^ k : Nat) : ℚ) ≤ m := by
  have hsig : Nat.pow 2 60 ≤ m / 10 ^ k := Nat.le_trans (by decide) (div_split_ge hlo hhi)
  have hle : m / 10 ^ k * 10 ^ k ≤ m := Nat.div_mul_le_self m _
  have hlt : m < m / 10 ^ k * 10 ^ k + 10 ^ k := Nat.lt_div_mul_add (by positivity)
  have ht : 10 ^ k * Nat.pow 2 60 ≤ m / 10 ^ k * 10 ^ k := by
    rw [Nat.mul_comm]
    exact Nat.mul_le_mul_right _ hsig
  have hle' : ((m / 10 ^ k : Nat) : ℚ) * ((10 ^ k : Nat) : ℚ) ≤ m := by exact_mod_cast hle
  have hlt' : (m : ℚ) < ((m / 10 ^ k : Nat) : ℚ) * ((10 ^ k : Nat) : ℚ) + ((10 ^ k : Nat) : ℚ) := by
    exact_mod_cast hlt
  have ht' : ((10 ^ k : Nat) : ℚ) * 2 ^ 60 ≤ ((m / 10 ^ k : Nat) : ℚ) * ((10 ^ k : Nat) : ℚ) := by
    have := (Nat.cast_le (α := ℚ)).2 ht
    simpa only [Nat.pow_eq, Nat.cast_mul, Nat.cast_pow, Nat.cast_ofNat] using this
  exact ⟨by linarith, hle'⟩

/-- Two natural numbers rounded, then multiplied exactly: within `(1 ± 2^-53)^2` of their
product. -/
theorem magnitude_mul_ofNat_bounds {a b : Nat} (ha : 1 ≤ a) (hb : 1 ≤ b)
    (haT : (a : ℚ) < overflowThreshold) (hbT : (b : ℚ) < overflowThreshold) :
    (a : ℚ) * b * (1 - 1 / 2 ^ 53) ^ 2 ≤ (ofNat a).magnitude * (ofNat b).magnitude ∧
      (ofNat a).magnitude * (ofNat b).magnitude ≤ (a : ℚ) * b * (1 + 1 / 2 ^ 53) ^ 2 := by
  obtain ⟨ha1, ha2⟩ := abs_sub_le_iff.1 (abs_magnitude_ofNat_sub ha haT)
  obtain ⟨hb1, hb2⟩ := abs_sub_le_iff.1 (abs_magnitude_ofNat_sub hb hbT)
  have ha0 : (0 : ℚ) ≤ a := Nat.cast_nonneg a
  have hb0 : (0 : ℚ) ≤ b := Nat.cast_nonneg b
  constructor
  · calc (a : ℚ) * b * (1 - 1 / 2 ^ 53) ^ 2 = (a * (1 - 1 / 2 ^ 53)) * (b * (1 - 1 / 2 ^ 53)) := by ring
      _ ≤ (ofNat a).magnitude * (ofNat b).magnitude :=
        mul_le_mul (by linarith) (by linarith) (by positivity) (magnitude_nonneg _)
  · calc (ofNat a).magnitude * (ofNat b).magnitude ≤ (a * (1 + 1 / 2 ^ 53)) * (b * (1 + 1 / 2 ^ 53)) :=
        mul_le_mul (by linarith) (by linarith) (magnitude_nonneg _) (by positivity)
      _ = (a : ℚ) * b * (1 + 1 / 2 ^ 53) ^ 2 := by ring

/-- The overflow threshold is a whole number. -/
theorem overflowThreshold_eq_natCast :
    overflowThreshold = ((Nat.pow 2 1024 - Nat.pow 2 970 : Nat) : ℚ) := by
  rw [Nat.cast_sub (show Nat.pow 2 970 ≤ Nat.pow 2 1024 by decide +kernel)]
  simp only [overflowThreshold, Nat.pow_eq, Nat.cast_pow, Nat.cast_ofNat]

/-- Below `2^1024` at most `290` digits are dropped: `2^64 * 10^289` is past `2^1024`. -/
theorem split_le_290 {m k : Nat} (hhi : Nat.pow 2 64 ≤ m / 10 ^ (k - 1)) (hm : m < Nat.pow 2 1024) :
    k ≤ 290 := by
  have h1 : Nat.pow 2 64 * 10 ^ (k - 1) ≤ m := (Nat.le_div_iff_mul_le (by positivity)).1 hhi
  have h2 : 10 ^ (k - 1) < 10 ^ 289 := by
    have h3 : Nat.pow 2 64 * 10 ^ (k - 1) < Nat.pow 2 64 * 10 ^ 289 :=
      Nat.lt_of_le_of_lt h1 (Nat.lt_of_lt_of_le hm (by decide +kernel))
    exact Nat.lt_of_mul_lt_mul_left h3
  have := (Nat.pow_lt_pow_iff_right (by decide)).1 h2
  omega

section Product

variable {m k : Nat} (hlo : m / 10 ^ k < Nat.pow 2 64) (hhi : Nat.pow 2 64 ≤ m / 10 ^ (k - 1))
include hlo hhi

/-- The rounded significand and power of ten are positive, so their product is rounded as a
positive number; it lies within `(1 ± 2^-53)^2` of the number without its dropped digits. -/
theorem stepwise_factors (hk : k ≤ 308) :
    RoundsTo false ((ofNat (m / 10 ^ k)).magnitude * (pow10 k).magnitude)
        ((ofNat (m / 10 ^ k)).mul (pow10 k)) ∧
      (m : ℚ) * (1 - 1 / 2 ^ 60) * (1 - 1 / 2 ^ 53) ^ 2 ≤
        (ofNat (m / 10 ^ k)).magnitude * (pow10 k).magnitude ∧
      (ofNat (m / 10 ^ k)).magnitude * (pow10 k).magnitude ≤ (m : ℚ) * (1 + 1 / 2 ^ 53) ^ 2 := by
  have hs1 : 1 ≤ m / 10 ^ k := Nat.le_trans (by decide) (div_split_ge hlo hhi)
  have hsT : ((m / 10 ^ k : Nat) : ℚ) < overflowThreshold := by
    rw [overflowThreshold_eq_natCast]
    exact Nat.cast_lt.2 (Nat.lt_of_lt_of_le hlo (by decide +kernel))
  have htT : ((Nat.pow 10 k : Nat) : ℚ) < overflowThreshold := by
    rw [overflowThreshold_eq_natCast]
    exact Nat.cast_lt.2
      (Nat.lt_of_le_of_lt (Nat.pow_le_pow_right (by decide) hk) (by decide +kernel))
  -- both factors are positive
  have hA : (ofNat (m / 10 ^ k)).sign = false := (roundsTo_ofNat _).sign hsT
  have hB : (pow10 k).sign = false := (roundsTo_ofNat _).sign htT
  have hround := roundsTo_mul (ofNat (m / 10 ^ k)) (pow10 k)
  rw [hA, hB] at hround
  obtain ⟨hlo', hhi'⟩ := split_value_bounds hlo hhi
  obtain ⟨hr1, hr2⟩ := magnitude_mul_ofNat_bounds hs1 (Nat.one_le_pow _ _ (by decide)) hsT htT
  refine ⟨hround, ?_, ?_⟩
  · calc (m : ℚ) * (1 - 1 / 2 ^ 60) * (1 - 1 / 2 ^ 53) ^ 2
        ≤ ((m / 10 ^ k : Nat) : ℚ) * ((10 ^ k : Nat) : ℚ) * (1 - 1 / 2 ^ 53) ^ 2 :=
          mul_le_mul_of_nonneg_right hlo' (by positivity)
      _ ≤ _ := hr1
  · calc (ofNat (m / 10 ^ k)).magnitude * (pow10 k).magnitude
        ≤ ((m / 10 ^ k : Nat) : ℚ) * ((10 ^ k : Nat) : ℚ) * (1 + 1 / 2 ^ 53) ^ 2 := hr2
      _ ≤ (m : ℚ) * (1 + 1 / 2 ^ 53) ^ 2 := mul_le_mul_of_nonneg_right hhi' (by positivity)

/-- **Far below the threshold the product is near.** When `m` is more than `2^-51` of it below
the overflow threshold, the stepwise product is finite, positive, and within `2^-51` of `m`. -/
theorem stepwise_near (hm : (m : ℚ) * (1 + 1 / 2 ^ 51) < overflowThreshold) :
    k < 309 ∧ ((ofNat (m / 10 ^ k)).mul (pow10 k)).isFinite = true ∧
      ((ofNat (m / 10 ^ k)).mul (pow10 k)).sign = false ∧
      |((ofNat (m / 10 ^ k)).mul (pow10 k)).magnitude - m| ≤ m / 2 ^ 51 := by
  have hm0 : (0 : ℚ) ≤ m := Nat.cast_nonneg m
  have hk : k ≤ 290 := by
    have h : ((m : Nat) : ℚ) < ((Nat.pow 2 1024 - Nat.pow 2 970 : Nat) : ℚ) := by
      rw [← overflowThreshold_eq_natCast]
      linarith [le_mul_of_one_le_right hm0 (show (1 : ℚ) ≤ 1 + 1 / 2 ^ 51 by norm_num)]
    exact split_le_290 hhi (Nat.lt_of_lt_of_le (Nat.cast_lt.1 h) (Nat.sub_le (Nat.pow 2 1024) (Nat.pow 2 970)))
  obtain ⟨hround, hlow, hhigh⟩ := stepwise_factors hlo hhi (by omega)
  set r := (ofNat (m / 10 ^ k)).magnitude * (pow10 k).magnitude
  have hrT : r < overflowThreshold := by nlinarith
  have hrn : (2 : ℚ) ^ (-1022 : Int) ≤ r := by
    have h1 : (2 : ℚ) ^ (-1022 : Int) ≤ 1 / 2 :=
      le_trans (zpow_le_zpow_right₀ (by norm_num) (show (-1022 : Int) ≤ -1 by norm_num)) (by norm_num)
    have h64 : (1 : ℚ) ≤ m := by exact_mod_cast Nat.le_trans (by decide) (Nat.le_trans hhi (Nat.div_le_self _ _))
    nlinarith
  obtain ⟨hx1, hx2⟩ := abs_sub_le_iff.1 (abs_magnitude_mul_sub _ _ hrT hrn)
  refine ⟨by omega, hround.finite hrT, hround.sign hrT, abs_sub_le_iff.2 ⟨?_, ?_⟩⟩
  · nlinarith
  · nlinarith

/-- **Far above the threshold the product overflows.** When `m` is more than `2^-51` of it above
the overflow threshold, the stepwise product is infinite or `k` is past `308`. -/
theorem stepwise_overflow (hm : overflowThreshold * (1 + 1 / 2 ^ 51) ≤ m) :
    ¬(k < 309 ∧ ((ofNat (m / 10 ^ k)).mul (pow10 k)).isInfinite = false) := by
  rintro ⟨hk, hfin⟩
  obtain ⟨hround, hlow, -⟩ := stepwise_factors hlo hhi (by omega)
  have hT0 : 0 < overflowThreshold := lt_trans (by positivity) two_zpow_lt_overflowThreshold
  have hrT : overflowThreshold ≤ (ofNat (m / 10 ^ k)).magnitude * (pow10 k).magnitude := by
    nlinarith
  rw [hround.overflow hrT, isInfinite_infinity] at hfin
  cases hfin

end Product

/-! ## The literal as a value -/

/-- A literal is read by the number reader, positive unless it has a minus sign. -/
theorem value_integerLiteral (neg : Bool) (m d : Nat) (s : Bytes) :
    (value d (integerLiteral neg m ++ s)).out = numberOut (number (!neg) (Reply.decimal m ++ s)) := by
  cases neg with
  | true =>
    have hsk : (skipBlank (integerLiteral true m ++ s)).1 = 45 :: (Reply.decimal m ++ s) := by
      rw [integerLiteral, if_pos rfl, List.append_assoc, List.singleton_append,
        skipBlank_val_of_not_blank _ (by decide)]
    exact value_of_minus hsk
  | false =>
    obtain ⟨c, ds, hcd, -⟩ := decimal_eq_cons m
    have hc : isDigit c = true := decimal_isDigit m c (hcd ▸ List.mem_cons_self)
    have hsk : (skipBlank (integerLiteral false m ++ s)).1 = c :: (ds ++ s) := by
      rw [integerLiteral, if_neg Bool.false_ne_true, List.nil_append, hcd, List.cons_append,
        skipBlank_val_of_not_blank _ (not_blank_of_digit hc)]
    rw [value_of_digit hsk hc, ← List.cons_append, ← hcd]
    rfl

/-- A number read as a float is that float as a value. -/
theorem numberOut_of_float {r s : Bytes} {x : Step r Number} {e : Except Stop Binary64}
    (h : x.out = e.map fun y => (.float y, s)) : numberOut x = e.map fun y => (.float y, s) := by
  unfold numberOut
  rw [h]
  cases e <;> rfl

section Literal

variable {m d : Nat} {s : Bytes}

/-- Below `2^64` the literal is read as a whole number with its sign. -/
theorem value_integerLiteral_short (neg : Bool) (hm : m < Nat.pow 2 64) (hs : Ends s) :
    (value d (integerLiteral neg m ++ s)).out =
      (numberValue (wholeNumber (!neg) m) s).map fun v => (v, s) := by
  rw [value_integerLiteral]
  exact numberOut_of_out (number_decimal_append _ hm hs)

/-- Without a sign, below `2^64`: an integer below `2^63`, out of range from there. -/
theorem value_integerLiteral_nonneg (hm : m < Nat.pow 2 64) (hs : Ends s) :
    (value d (integerLiteral false m ++ s)).out =
      if m < Nat.pow 2 63 then .ok (.int (Int64.ofNat m), s)
      else .error (stopAt (.integerOutOfRange m) s) := by
  rw [value_integerLiteral_short false hm hs]
  show ((numberValue (.whole m) s).map fun v => (v, s)) = _
  dsimp only [numberValue]
  by_cases h : m < Nat.pow 2 63
  · rw [if_pos h, if_pos h]
    rfl
  · rw [if_neg h, if_neg h]
    rfl

/-- With a minus sign, below `2^64`: a float for `-0` and below `-2^63`, an integer otherwise. -/
theorem value_integerLiteral_neg (hm : m < Nat.pow 2 64) (hs : Ends s) :
    (value d (integerLiteral true m ++ s)).out =
      if m = 0 ∨ Nat.pow 2 63 < m then .ok (.float (ofNat m).negate, s)
      else .ok (.int (Int64.ofInt (-(m : Int))), s) := by
  rw [value_integerLiteral_short true hm hs]
  show ((numberValue (wholeNumber false m) s).map fun v => (v, s)) = _
  rw [wholeNumber, if_neg Bool.false_ne_true]
  by_cases h : m = 0 ∨ Nat.pow 2 63 < m
  · rw [if_pos h, if_pos h]
    rfl
  · rw [if_neg h, if_neg h]
    rfl

/-- From `2^64` up: the float of the leading digits times `10^k`, each rounded, with the sign;
out of range when that product is infinite. -/
theorem value_integerLiteral_long (neg : Bool) {k : Nat} (hlo : m / 10 ^ k < Nat.pow 2 64)
    (hhi : Nat.pow 2 64 ≤ m / 10 ^ (k - 1)) (hs : Ends s) :
    (value d (integerLiteral neg m ++ s)).out =
      let x := (ofNat (m / 10 ^ k)).mul (pow10 k)
      if k < 309 ∧ x.isInfinite = false then .ok (.float (if neg then x.negate else x), s)
      else .error (stopAt .numberOutOfRange s) := by
  have hsig : 4 ≤ m / 10 ^ k := Nat.le_trans (by decide) (div_split_ge hlo hhi)
  rw [value_integerLiteral, numberOut_of_float (number_decimal_long _ hlo hhi hs), fromParts_nonneg hsig]
  dsimp only
  split <;> cases neg <;> rfl

/-- From `2^64` up and more than `2^-51` below the overflow threshold: a finite float of the
literal's sign within `2^-51` of `m`. -/
theorem value_integerLiteral_near (neg : Bool) {k : Nat} (hlo : m / 10 ^ k < Nat.pow 2 64)
    (hhi : Nat.pow 2 64 ≤ m / 10 ^ (k - 1)) (hs : Ends s)
    (hm : (m : ℚ) * (1 + 1 / 2 ^ 51) < overflowThreshold) :
    ∃ x, (value d (integerLiteral neg m ++ s)).out = .ok (.float x, s) ∧ x.isFinite = true ∧
      x.sign = neg ∧ |x.magnitude - m| ≤ m / 2 ^ 51 := by
  obtain ⟨hk, hfin, hsign, hnear⟩ := stepwise_near hlo hhi hm
  rw [value_integerLiteral_long neg hlo hhi hs]
  dsimp only
  rw [if_pos ⟨hk, isInfinite_eq_false hfin⟩]
  refine ⟨_, rfl, ?_⟩
  cases neg with
  | false =>
    rw [if_neg Bool.false_ne_true]
    exact ⟨hfin, hsign, hnear⟩
  | true =>
    rw [if_pos rfl, isFinite_negate, sign_negate, magnitude_negate, hsign]
    exact ⟨hfin, rfl, hnear⟩

/-- From more than `2^-51` above the overflow threshold: out of range. -/
theorem value_integerLiteral_overflow (neg : Bool) {k : Nat} (hlo : m / 10 ^ k < Nat.pow 2 64)
    (hhi : Nat.pow 2 64 ≤ m / 10 ^ (k - 1)) (hs : Ends s)
    (hm : overflowThreshold * (1 + 1 / 2 ^ 51) ≤ m) :
    (value d (integerLiteral neg m ++ s)).out = .error (stopAt .numberOutOfRange s) := by
  rw [value_integerLiteral_long neg hlo hhi hs]
  dsimp only
  rw [if_neg (stepwise_overflow hlo hhi hm)]

end Literal

/-- A stop in reading a whole text, other than at the reader's limit of open containers, is a
JSON fault of the parse, whatever the depth limit. -/
theorem parse_of_value_error {limit : Nat} {text : Bytes} {st : Stop}
    (h : (value recursionLimit text).out = .error st) (hp : st.problem ≠ .recursionLimitExceeded) :
    parse limit text = .error (.json (Fault.ofStop text st)) := by
  rw [parse, readText_of_error h]
  dsimp only
  rw [if_neg hp]

/-! ## Integer literals -/

/-- **Integer literals at the limits of 64 bits.** A literal with the digits of `m`, with a minus
sign when `neg`, read at any depth before anything that may end a value, is: an integer from
`-2^63` to `2^63 - 1`; out of range from `2^63` to `2^64 - 1` without a sign, also as a whole
text; the negative zero for `-0`; the nearest float from `-2^63 - 1` down to `-(2^64 - 1)`; and
from `2^64` up the product of the leading digits' float and `10^k`, each rounded, out of range
when that product is infinite. That product is finite and within `2^-51` of `m` when `m` is more
than `2^-51` of the overflow threshold below it, and out of range when `m` is as far above. -/
theorem integer_literal_read (neg : Bool) (m d : Nat) {s : Bytes} (hs : Ends s) :
    ((neg = false ∧ m < Nat.pow 2 63 ∨ neg = true ∧ 0 < m ∧ m ≤ Nat.pow 2 63) →
      ∃ n : Int64, n.toInt = (if neg then -(m : Int) else m) ∧
        (value d (integerLiteral neg m ++ s)).out = .ok (.int n, s)) ∧
    (neg = false → Nat.pow 2 63 ≤ m → m < Nat.pow 2 64 →
      (value d (integerLiteral neg m ++ s)).out = .error (stopAt (.integerOutOfRange m) s) ∧
      ∀ limit, ∃ f : Fault, parse limit (integerLiteral neg m) = .error (.json f) ∧
        f.problem = .integerOutOfRange m) ∧
    (neg = true → m = 0 →
      (value d (integerLiteral neg m ++ s)).out = .ok (.float (signedZero true), s)) ∧
    (neg = true → Nat.pow 2 63 < m → m < Nat.pow 2 64 →
      ∃ x, (value d (integerLiteral neg m ++ s)).out = .ok (.float x, s) ∧ RoundsTo true m x) ∧
    (Nat.pow 2 64 ≤ m →
      (∃ k : Nat, m / 10 ^ k < Nat.pow 2 64 ∧ Nat.pow 2 64 ≤ m / 10 ^ (k - 1) ∧
        (value d (integerLiteral neg m ++ s)).out =
          let x := (ofNat (m / 10 ^ k)).mul (pow10 k)
          if k < 309 ∧ x.isInfinite = false then .ok (.float (if neg then x.negate else x), s)
          else .error (stopAt .numberOutOfRange s)) ∧
      ((m : ℚ) * (1 + 1 / 2 ^ 51) < overflowThreshold →
        ∃ x, (value d (integerLiteral neg m ++ s)).out = .ok (.float x, s) ∧ x.isFinite = true ∧
          x.sign = neg ∧ |x.magnitude - m| ≤ m / 2 ^ 51) ∧
      (overflowThreshold * (1 + 1 / 2 ^ 51) ≤ m →
        (value d (integerLiteral neg m ++ s)).out = .error (stopAt .numberOutOfRange s))) := by
  refine ⟨?int, ?range, ?zero, ?below, ?long⟩
  case int =>
    rintro (⟨rfl, hm⟩ | ⟨rfl, hm0, hm⟩)
    · refine ⟨Int64.ofNat m, ?_, ?_⟩
      · rw [Int64.toInt_ofNat_of_lt (by simpa using hm)]
        rfl
      · rw [value_integerLiteral_nonneg (Nat.lt_trans hm (by decide)) hs, if_pos hm]
    · have hm' : (m : Int) ≤ 2 ^ 63 := by
        simp only [Nat.pow_eq] at hm
        omega
      refine ⟨Int64.ofInt (-(m : Int)), ?_, ?_⟩
      · rw [Int64.toInt_ofInt_of_le (by omega) (by omega)]
        rfl
      · rw [value_integerLiteral_neg (Nat.lt_of_le_of_lt hm (by decide)) hs, if_neg (by omega)]
  case range =>
    rintro rfl hm hm'
    have hst : ∀ (d' : Nat) (r : Bytes), Ends r → (value d' (integerLiteral false m ++ r)).out =
        .error (stopAt (.integerOutOfRange m) r) := fun d' r hr => by
      rw [value_integerLiteral_nonneg hm' hr, if_neg (Nat.not_lt.2 hm)]
    -- the literal alone is a whole text, read at the reader's own depth
    have hwhole := hst recursionLimit [] trivial
    rw [List.append_nil] at hwhole
    exact ⟨hst d s hs, fun limit => ⟨_, parse_of_value_error hwhole (by intro h; cases h), rfl⟩⟩
  case zero =>
    rintro rfl rfl
    rw [value_integerLiteral_neg (by decide) hs, if_pos (.inl rfl)]
    rfl
  case below =>
    rintro rfl hm hm'
    refine ⟨(ofNat m).negate, ?_, (roundsTo_ofNat m).negate⟩
    rw [value_integerLiteral_neg hm' hs, if_pos (.inr hm)]
  case long =>
    intro hm
    obtain ⟨k, hlo, hhi⟩ := exists_significand_split hm
    exact ⟨⟨k, hlo, hhi, value_integerLiteral_long neg hlo hhi hs⟩,
      value_integerLiteral_near neg hlo hhi hs, value_integerLiteral_overflow neg hlo hhi hs⟩

/-- At the limits: `-2^63` is the least integer and `2^63` is out of range, `-0` is the negative
zero, and `10^20`, past `2^64`, is a finite float within `2^-51` of it. -/
theorem integer_literals_at_the_limits :
    (∃ n : Int64, n.toInt = -(2 ^ 63) ∧
      (value 1 (integerLiteral true (Nat.pow 2 63) ++ [])).out = .ok (.int n, [])) ∧
    (value 1 (integerLiteral false (Nat.pow 2 63) ++ [])).out =
      .error (stopAt (.integerOutOfRange (Nat.pow 2 63)) []) ∧
    (value 1 (integerLiteral true 0 ++ [])).out = .ok (.float (signedZero true), []) ∧
    ∃ x, (value 1 (integerLiteral false (10 ^ 20) ++ [])).out = .ok (.float x, []) ∧
      x.isFinite = true ∧ |x.magnitude - (10 ^ 20 : Nat)| ≤ (10 ^ 20 : Nat) / 2 ^ 51 := by
  obtain ⟨n, hn, hv⟩ := (integer_literal_read true (Nat.pow 2 63) 1 (s := []) trivial).1
    (.inr ⟨rfl, by decide, Nat.le_refl _⟩)
  have hbig : ((10 ^ 20 : Nat) : ℚ) * (1 + 1 / 2 ^ 51) < overflowThreshold :=
    calc ((10 ^ 20 : Nat) : ℚ) * (1 + 1 / 2 ^ 51) < 2 ^ (100 : Int) := by norm_num
      _ ≤ 2 ^ (1023 : Int) := zpow_le_zpow_right₀ (by norm_num) (by norm_num)
      _ < overflowThreshold := two_zpow_lt_overflowThreshold
  obtain ⟨x, hx, hfin, -, hnear⟩ :=
    ((integer_literal_read false (10 ^ 20) 1 (s := []) trivial).2.2.2.2 (by decide)).2.1 hbig
  refine ⟨⟨n, ?_, hv⟩, ((integer_literal_read false (Nat.pow 2 63) 1 (s := []) trivial).2.1 rfl
    (Nat.le_refl _) (by decide)).1,
    (integer_literal_read true 0 1 (s := []) trivial).2.2.1 rfl rfl, x, hx, hfin, hnear⟩
  rw [hn]
  rfl

/-- The largest finite number, `2^1024 - 2^971`, written out as an integer literal is out of
range: its leading twenty digits and `10^289`, each rounded, have a product that rounds to
infinity, although the literal itself converts to that finite number exactly. -/
theorem largest_finite_literal_out_of_range :
    (ofNat (Nat.pow 2 1024 - Nat.pow 2 971)).bits = 0x7FEFFFFFFFFFFFFF ∧
    ∃ f : Fault, parse defaultDepth (integerLiteral false (Nat.pow 2 1024 - Nat.pow 2 971)) =
      .error (.json f) ∧ f.problem = .numberOutOfRange := by
  have hlo : (Nat.pow 2 1024 - Nat.pow 2 971) / 10 ^ 289 < Nat.pow 2 64 := by decide +kernel
  have hhi : Nat.pow 2 64 ≤ (Nat.pow 2 1024 - Nat.pow 2 971) / 10 ^ (289 - 1) := by decide +kernel
  have hinf : ((ofNat ((Nat.pow 2 1024 - Nat.pow 2 971) / 10 ^ 289)).mul (pow10 289)).isInfinite =
      true := by decide +kernel
  have hv := value_integerLiteral_long (d := recursionLimit) (s := []) false hlo hhi trivial
  rw [List.append_nil, if_neg (by rw [hinf]; decide)] at hv
  refine ⟨by decide +kernel, _, parse_of_value_error hv (by intro h; cases h), rfl⟩

end HandlerKit.Json
