import HandlerKit.Proofs.Rounding
import HandlerKit.Proofs.Tnetstring.Payload

/-!
# Float literals

The grammar of the decimal text `FloatText.read` accepts, and what it gives for it.

**The grammar** (`Literal`). A sign (`SignText`: none, `+` or `-`), then a body (`BodyText`):
either a numeral (`NumeralText`: digits, a point with digits or no point, a digit on one side of
the point at least, then an exponent part `ExponentText`: `e` or `E`, a sign, at least one digit)
or one of the words `inf`, `infinity`, `nan` in any mix of cases (`Spells`). A numeral stands for
its exact rational value `Numeral.exact`.

**What it reads as** (`Spelled.Decodes`). A numeral's value rounded to nearest, ties to even, with
the literal's sign (`Binary64.RoundsTo`); infinity of that sign; or the quiet NaN whose sign bit
is the literal's.

**Theorems.** `read_eq_ok_of_literal`: every literal is read, as a number it decodes to;
`literal_of_read_eq_ok`: whatever the reader accepts is a literal, and what it gives decodes it.
The decimal cut-offs of `decimalValue` (infinity from a leading digit of weight `10^309`, zero
below `10^-325`) are where rounding gives the same (`decimalValue_roundsTo`).
-/

namespace HandlerKit.FloatText

open Binary64

/-! ## Digits -/

theorem foldl_digits (acc : Nat) (ds : List UInt8) :
    ds.foldl (fun acc b => acc * 10 + (b.toNat - 48)) acc = acc * 10 ^ ds.length + digitsValue ds := by
  induction ds generalizing acc with
  | nil => simp [digitsValue]
  | cons b ds ih =>
    simp only [List.foldl_cons, List.length_cons, digitsValue]
    rw [ih (acc * 10 + (b.toNat - 48)), ih (0 * 10 + (b.toNat - 48))]
    simp only [digitsValue, Nat.pow_succ]
    ring

/-- Digits after digits: the first ones shift by the count of the second. -/
theorem digitsValue_append (a b : List UInt8) :
    digitsValue (a ++ b) = digitsValue a * 10 ^ b.length + digitsValue b := by
  rw [digitsValue, List.foldl_append, foldl_digits]
  rfl

/-! ## The grammar -/

/-- An optional sign, and whether it is a minus. -/
inductive SignText : List UInt8 → Bool → Prop
  | none : SignText [] false
  | plus : SignText [43] false
  | minus : SignText [45] true

/-- An exponent part and its value: nothing, or `e` or `E`, a sign and at least one digit. -/
inductive ExponentText : List UInt8 → Int → Prop
  | none : ExponentText [] 0
  | mark {m : UInt8} {sign ds : List UInt8} {neg : Bool} (hm : m = 101 ∨ m = 69)
      (hs : SignText sign neg) (hne : ds ≠ []) (hd : ∀ b ∈ ds, isDigit b) :
      ExponentText (m :: (sign ++ ds)) (if neg then -(digitsValue ds : Int) else digitsValue ds)

/-- A decimal numeral: digits, a point with digits after it or no point, a digit on one side of
the point at least, and an exponent part. -/
inductive NumeralText : List UInt8 → Numeral → Prop
  | mk {whole point frac ex : List UInt8} {x : Int} (hw : ∀ b ∈ whole, isDigit b)
      (hp : point = [46] ∨ point = [] ∧ frac = []) (hf : ∀ b ∈ frac, isDigit b)
      (hne : whole ++ frac ≠ []) (he : ExponentText ex x) :
      NumeralText (whole ++ point ++ frac ++ ex) ⟨whole, frac, x⟩

/-- The exact value of a numeral: its digits before the point, the digits after it as a
fraction, scaled by the exponent. -/
def Numeral.exact (n : Numeral) : ℚ :=
  (digitsValue n.whole + digitsValue n.fraction / 10 ^ n.fraction.length) * 10 ^ n.exponent

/-- `s` spells the upper-case ASCII word `w` in any mix of cases: each byte is the letter or the
lower-case letter 32 above it. -/
def Spells (s w : List UInt8) : Prop := List.Forall₂ (fun b c => b = c ∨ b = c + 32) s w

/-- `INF` -/
def wordInf : List UInt8 := [73, 78, 70]

/-- `INFINITY` -/
def wordInfinity : List UInt8 := [73, 78, 70, 73, 78, 73, 84, 89]

/-- `NAN` -/
def wordNan : List UInt8 := [78, 65, 78]

/-- What a float literal stands for, apart from its sign. -/
inductive Spelled where
  | number (r : ℚ)
  | infinity
  | nan

/-- The text after the sign: a numeral, or one of the words. -/
inductive BodyText : List UInt8 → Spelled → Prop
  | number {s : List UInt8} {n : Numeral} (h : NumeralText s n) : BodyText s (.number n.exact)
  | infinity {s : List UInt8} (h : Spells s wordInf ∨ Spells s wordInfinity) : BodyText s .infinity
  | nan {s : List UInt8} (h : Spells s wordNan) : BodyText s .nan

/-- A float literal: a sign, then a body. -/
inductive Literal : List UInt8 → Bool → Spelled → Prop
  | mk {sign body : List UInt8} {neg : Bool} {sp : Spelled} (hs : SignText sign neg)
      (hb : BodyText body sp) : Literal (sign ++ body) neg sp

/-- The binary64 numbers a literal with the sign `neg` reads as: its value rounded, infinity of
that sign, or the quiet NaN with that sign bit. -/
def Spelled.Decodes (neg : Bool) : Spelled → Binary64 → Prop
  | .number r, x => RoundsTo neg r x
  | .infinity, x => x = Binary64.infinity neg
  | .nan, x => x.bits = if neg then 0xFFF8000000000000 else 0x7FF8000000000000

/-! ## Exponents -/

theorem not_isDigit_of_mark {m : UInt8} (hm : m = 101 ∨ m = 69) : ¬isDigit m := by
  rcases hm with rfl | rfl <;> decide

theorem isDigit_ne_sign {b : UInt8} (hb : isDigit b) : b ≠ 45 ∧ b ≠ 43 := by
  simp only [isDigit, Bool.and_eq_true, decide_eq_true_eq] at hb
  constructor <;> (rintro rfl; exact absurd hb (by decide))

/-- Digits after a sign read as the signed number. -/
theorem readExponent_sign_append {sign ds : List UInt8} {neg : Bool} (hs : SignText sign neg)
    (hne : ds ≠ []) (hd : ∀ b ∈ ds, isDigit b) :
    readExponent (sign ++ ds) = some (if neg then -(digitsValue ds : Int) else digitsValue ds) := by
  have hall : ds.all isDigit = true := List.all_eq_true.2 hd
  obtain ⟨c, r, rfl⟩ := List.exists_cons_of_ne_nil hne
  have hc := isDigit_ne_sign (hd c List.mem_cons_self)
  cases hs with
  | none => simp [readExponent, hc.1, hc.2, hall]
  | plus => simp [readExponent, hall]
  | minus => simp [readExponent, hall]

/-- What `readExponent` accepts: a sign and at least one digit. -/
theorem readExponent_sound {r : List UInt8} {x : Int} (h : readExponent r = some x) :
    ∃ sign ds neg, r = sign ++ ds ∧ SignText sign neg ∧ ds ≠ [] ∧ (∀ b ∈ ds, isDigit b) ∧
      x = if neg then -(digitsValue ds : Int) else digitsValue ds := by
  unfold readExponent at h
  split at h
  rename_i neg ds heq
  split at h
  · rename_i hds
    have hd : ∀ b ∈ ds, isDigit b := fun b hb => List.all_eq_true.1 hds.2 b hb
    obtain rfl := (Option.some.inj h).symm
    split at heq <;> obtain ⟨rfl, rfl⟩ := Prod.mk.inj heq
    · exact ⟨[45], _, true, rfl, .minus, hds.1, hd, rfl⟩
    · exact ⟨[43], _, false, rfl, .plus, hds.1, hd, rfl⟩
    · exact ⟨[], _, false, rfl, .none, hds.1, hd, rfl⟩
  · cases h

/-- The end of `readNumeral`: nothing, or a mark and an exponent. -/
theorem exponentText_of_match {t w f : List UInt8} {n : Numeral}
    (h : (match t with
      | [] => some (⟨w, f, 0⟩ : Numeral)
      | e :: r => if e = 101 ∨ e = 69 then (readExponent r).map fun x => (⟨w, f, x⟩ : Numeral)
        else none) = some n) :
    ∃ x, ExponentText t x ∧ n = ⟨w, f, x⟩ := by
  split at h
  · exact ⟨0, .none, (Option.some.inj h).symm⟩
  · rename_i m r
    split at h
    · rename_i hm
      obtain ⟨x, hx, rfl⟩ := Option.map_eq_some_iff.1 h
      obtain ⟨sign, ds, neg, rfl, hs, hne, hd, rfl⟩ := readExponent_sound hx
      exact ⟨_, .mark hm hs hne hd, rfl⟩
    · cases h

/-- No exponent part starts with a digit. -/
theorem ExponentText.head_not_digit {ex : List UInt8} {x : Int} (h : ExponentText ex x) :
    ∀ b, ex.head? = some b → isDigit b = false := by
  cases h with
  | none => intro b hb; cases hb
  | mark hm =>
    intro b hb
    obtain rfl := (Option.some.inj hb).symm
    simpa using not_isDigit_of_mark hm

/-! ## Numerals -/

/-- The run a span operation takes is exactly a run followed by a byte that stops it. -/
theorem takeWhile_exact {p : UInt8 → Bool} {body rest : List UInt8} (hin : ∀ b ∈ body, p b)
    (hstop : ∀ b, rest.head? = some b → p b = false) : (body ++ rest).takeWhile p = body := by
  rw [List.takeWhile_append_of_pos hin]
  cases rest with
  | nil => simp
  | cons b tail => simp [hstop b rfl]

theorem dropWhile_exact {p : UInt8 → Bool} {body rest : List UInt8} (hin : ∀ b ∈ body, p b)
    (hstop : ∀ b, rest.head? = some b → p b = false) : (body ++ rest).dropWhile p = rest := by
  rw [List.dropWhile_append_of_pos hin]
  cases rest with
  | nil => rfl
  | cons b tail => simp [hstop b rfl]

theorem readNumeral_sound {s : List UInt8} {n : Numeral} (h : readNumeral s = some n) :
    NumeralText s n := by
  unfold readNumeral at h
  have hs := List.takeWhile_append_dropWhile (p := isDigit) (l := s)
  have hw : ∀ b ∈ s.takeWhile isDigit, isDigit b := fun b hb =>
    List.all_eq_true.1 List.all_takeWhile b hb
  generalize s.takeWhile isDigit = whole at h hs hw
  generalize s.dropWhile isDigit = afterWhole at h hs
  subst hs
  dsimp only at h
  split at h
  · -- a point, then the digits after it
    rename_i r
    have hr := List.takeWhile_append_dropWhile (p := isDigit) (l := r)
    have hf : ∀ b ∈ r.takeWhile isDigit, isDigit b := fun b hb =>
      List.all_eq_true.1 List.all_takeWhile b hb
    split at h
    · cases h
    · rename_i hne
      obtain ⟨x, hx, rfl⟩ := exponentText_of_match h
      have hn := NumeralText.mk hw (.inl rfl) hf (fun h' => hne (List.append_eq_nil_iff.1 h')) hx
      rwa [List.append_assoc, List.append_assoc, hr, List.singleton_append] at hn
  · -- no point
    split at h
    · cases h
    · rename_i hne
      obtain ⟨x, hx, rfl⟩ := exponentText_of_match h
      have hn := NumeralText.mk hw (.inr ⟨rfl, rfl⟩) (fun _ hb => absurd hb List.not_mem_nil)
        (fun h' => hne ⟨List.append_eq_nil_iff.1 h' |>.1, rfl⟩) hx
      rwa [List.append_nil, List.append_nil] at hn

theorem readNumeral_complete {s : List UInt8} {n : Numeral} (h : NumeralText s n) :
    readNumeral s = some n := by
  obtain ⟨hw, hp, hf, hne, he⟩ := h
  have hstop := he.head_not_digit
  unfold readNumeral
  rcases hp with rfl | ⟨rfl, rfl⟩
  · -- with a point
    rw [List.append_assoc, List.append_assoc, takeWhile_exact hw (by simp; decide),
      dropWhile_exact hw (by simp; decide), List.singleton_append]
    simp only
    rw [takeWhile_exact hf hstop, dropWhile_exact hf hstop,
      if_neg fun h' => hne (List.append_eq_nil_iff.2 h')]
    cases he with
    | none => rfl
    | mark hm hs hne' hd => simp [hm, readExponent_sign_append hs hne' hd]
  · rw [List.append_nil, List.append_nil, takeWhile_exact hw hstop, dropWhile_exact hw hstop]
    rw [List.append_nil] at hne
    cases he with
    | none => simp [hne]
    | mark hm hs hne' hd =>
      rcases hm with rfl | rfl <;>
        simp [readExponent_sign_append hs hne' hd, hne]

theorem readNumeral_eq_some_iff {s : List UInt8} {n : Numeral} :
    readNumeral s = some n ↔ NumeralText s n :=
  ⟨readNumeral_sound, readNumeral_complete⟩

/-- A numeral starts with a digit or the point. -/
theorem NumeralText.head {s : List UInt8} {n : Numeral} (h : NumeralText s n) :
    ∃ c r, s = c :: r ∧ (isDigit c ∨ c = 46) := by
  cases h with | mk hw hp hf hne he => ?_
  rename_i whole point frac ex x
  cases whole with
  | cons c r => exact ⟨c, _, rfl, .inl (hw c List.mem_cons_self)⟩
  | nil =>
    rcases hp with rfl | ⟨rfl, rfl⟩
    · exact ⟨46, _, rfl, .inr rfl⟩
    · exact absurd rfl hne

/-! ## Words -/

theorem upper_eq_iff {b c : UInt8} (hc : 65 ≤ c ∧ c ≤ 90) : upper b = c ↔ b = c ∨ b = c + 32 := by
  have hc' : 65 ≤ c.toNat ∧ c.toNat ≤ 90 := hc
  have hb := b.toNat_lt
  unfold upper
  split
  · rename_i h
    have h' : 97 ≤ b.toNat ∧ b.toNat ≤ 122 := h
    have h32 : (32 : UInt8) ≤ b := UInt8.le_iff_toNat_le.2 (by simp only [UInt8.reduceToNat]; omega)
    rw [UInt8.ext_iff, UInt8.ext_iff, UInt8.ext_iff, UInt8.toNat_sub_of_le _ _ h32, UInt8.toNat_add]
    simp only [UInt8.reduceToNat]
    omega
  · rename_i h
    have h' : ¬(97 ≤ b.toNat ∧ b.toNat ≤ 122) := h
    rw [UInt8.ext_iff, UInt8.ext_iff, UInt8.toNat_add]
    simp only [UInt8.reduceToNat]
    omega

theorem spells_cons {b c : UInt8} {s w : List UInt8} :
    Spells (b :: s) (c :: w) ↔ (b = c ∨ b = c + 32) ∧ Spells s w :=
  List.forall₂_cons

/-- Folding to upper case gives an upper-case word exactly when the bytes spell it. -/
theorem map_upper_eq_iff {s w : List UInt8} (hw : ∀ c ∈ w, 65 ≤ c ∧ c ≤ 90) :
    s.map upper = w ↔ Spells s w := by
  induction s generalizing w with
  | nil => cases w <;> simp [Spells]
  | cons b s ih =>
    cases w with
    | nil => simp [Spells]
    | cons c w =>
      rw [List.map_cons, List.cons.injEq, spells_cons, upper_eq_iff (hw c List.mem_cons_self),
        ih fun c' hc' => hw c' (List.mem_cons_of_mem c hc')]

/-- The three words are spelled in capitals. -/
theorem words_upper : (∀ c ∈ wordInf, 65 ≤ c ∧ c ≤ 90) ∧ (∀ c ∈ wordInfinity, 65 ≤ c ∧ c ≤ 90) ∧
    (∀ c ∈ wordNan, 65 ≤ c ∧ c ≤ 90) := by
  simp only [wordInf, wordInfinity, wordNan, List.forall_mem_cons, List.not_mem_nil, false_imp_iff,
    forall_const, and_true]
  decide

theorem readWord_eq_some_iff {s : List UInt8} {x : Binary64} :
    readWord s = some x ↔
      ((Spells s wordInf ∨ Spells s wordInfinity) ∧ x = Binary64.infinity false) ∨
        (Spells s wordNan ∧ x = Binary64.nan) := by
  obtain ⟨hinf, hinfinity, hnan⟩ := words_upper
  rw [← map_upper_eq_iff hinf, ← map_upper_eq_iff hinfinity, ← map_upper_eq_iff hnan]
  unfold readWord
  generalize s.map upper = w
  simp only [wordInf, wordInfinity, wordNan]
  by_cases h1 : w = [73, 78, 70] ∨ w = [73, 78, 70, 73, 78, 73, 84, 89]
  · have h2 : w ≠ [78, 65, 78] := by rcases h1 with rfl | rfl <;> decide
    rw [if_pos h1, Option.some.injEq, eq_comm]
    simp only [h1, h2, true_and, false_and, or_false]
  · rw [if_neg h1]
    by_cases h2 : w = [78, 65, 78]
    · rw [if_pos h2, Option.some.injEq, eq_comm]
      simp only [h1, false_and, false_or]
      simp only [h2, true_and]
    · rw [if_neg h2]
      simp only [h1, h2, false_and, or_false, reduceCtorEq]

/-! ## Values -/

/-- A nonzero number of `L` decimal digits lies in `[10^(L-1), 10^L)`. -/
theorem toDigits_length_bounds {d : Nat} (hd : d ≠ 0) :
    10 ^ ((Nat.toDigits 10 d).length - 1) ≤ d ∧ d < 10 ^ (Nat.toDigits 10 d).length := by
  have hpos : 0 < (Nat.toDigits 10 d).length := Nat.length_toDigits_pos
  refine ⟨?_, (Nat.length_toDigits_le_iff (by decide) hpos).1 le_rfl⟩
  rcases Nat.lt_or_ge 1 (Nat.toDigits 10 d).length with h | h
  · exact Nat.not_lt.1 fun hlt =>
      absurd ((Nat.length_toDigits_le_iff (by decide) (by omega)).2 hlt) (by omega)
  · rw [show (Nat.toDigits 10 d).length - 1 = 0 by omega, Nat.pow_zero]
    omega

/-- `10^309` is past the overflow threshold. -/
theorem overflowThreshold_lt_ten_zpow : overflowThreshold < 10 ^ (309 : Int) := by
  have h2 := overflowThreshold_lt_two_zpow
  rw [zpow_ofNat] at h2 ⊢
  have h : ((2 ^ 1024 : Nat) : ℚ) < ((10 ^ 309 : Nat) : ℚ) := Nat.cast_lt.2 (by decide +kernel)
  rw [Nat.cast_pow, Nat.cast_pow, Nat.cast_ofNat, Nat.cast_ofNat] at h
  exact h2.trans h

/-- `10^-325` is below half the smallest subnormal. -/
theorem two_mul_ten_zpow_lt : 2 * (10 : ℚ) ^ (-325 : Int) < 2 ^ (-1074 : Int) := by
  have h : ((2 * 2 ^ 1074 : Nat) : ℚ) < ((10 ^ 325 : Nat) : ℚ) := Nat.cast_lt.2 (by decide +kernel)
  rw [Nat.cast_mul, Nat.cast_pow, Nat.cast_pow, Nat.cast_ofNat, Nat.cast_ofNat] at h
  rw [zpow_neg, zpow_neg, zpow_ofNat, zpow_ofNat, ← div_eq_mul_inv, ← one_div,
    div_lt_div_iff₀ (by positivity) (by positivity), one_mul]
  exact h

/-- The cut-offs of `decimalValue` agree with rounding: from a leading digit of weight `10^309`
the value is past the overflow threshold, below `10^-325` it is nearer zero than any other
number, and in between the value is rounded once. -/
theorem decimalValue_roundsTo (neg : Bool) (digits : Nat) (e : Int) :
    RoundsTo neg (digits * 10 ^ e) (decimalValue neg digits e) := by
  unfold decimalValue
  split
  · rename_i h0
    rw [h0, Nat.cast_zero, zero_mul]
    exact roundsTo_signedZero le_rfl (by rw [mul_zero]; positivity)
  rename_i h0
  obtain ⟨hlo, hhi⟩ := toDigits_length_bounds h0
  have hL : 0 < (Nat.toDigits 10 digits).length := Nat.length_toDigits_pos
  dsimp only
  have hp : (0 : ℚ) < 10 ^ e := by positivity
  -- the value lies in `[10^(L - 1 + e), 10^(L + e))`, `L` the count of digits
  have hlo' : (10 : ℚ) ^ (((Nat.toDigits 10 digits).length : Int) - 1 + e) ≤ digits * 10 ^ e := by
    rw [zpow_add₀ (by norm_num), show ((Nat.toDigits 10 digits).length : Int) - 1 =
      (((Nat.toDigits 10 digits).length - 1 : Nat) : Int) by omega, zpow_natCast]
    exact mul_le_mul_of_nonneg_right (by exact_mod_cast hlo) hp.le
  have hhi' : (digits : ℚ) * 10 ^ e < 10 ^ (((Nat.toDigits 10 digits).length : Int) + e) := by
    rw [zpow_add₀ (by norm_num), zpow_natCast]
    exact mul_lt_mul_of_pos_right (by exact_mod_cast hhi) hp
  split
  · rename_i hbig
    exact roundsTo_infinity (overflowThreshold_lt_ten_zpow.trans_le
      ((zpow_le_zpow_right₀ (by norm_num) (by omega)).trans hlo')).le
  split
  · rename_i _ hsmall
    refine roundsTo_signedZero (by positivity) ?_
    have := hhi'.trans_le (zpow_le_zpow_right₀ (by norm_num) hsmall)
    linarith [two_mul_ten_zpow_lt]
  split
  · rename_i _ _ he
    have h := roundRatio_roundsTo neg (digits * Nat.pow 10 e.toNat) 1 0
    rwa [Nat.cast_one, div_one, zpow_zero, mul_one, Nat.cast_mul, Nat.pow_eq, Nat.cast_pow,
      Nat.cast_ofNat, ← zpow_natCast, Int.toNat_of_nonneg he] at h
  · rename_i _ _ he
    have h := roundRatio_roundsTo neg digits (Nat.pow 10 (-e).toNat) 0
    rwa [zpow_zero, mul_one, Nat.pow_eq, Nat.cast_pow, Nat.cast_ofNat, ← zpow_natCast,
      Int.toNat_of_nonneg (by omega), div_eq_mul_inv, ← zpow_neg, neg_neg] at h

theorem Numeral.exact_eq (n : Numeral) :
    n.exact = digitsValue (n.whole ++ n.fraction) * 10 ^ (n.exponent - n.fraction.length) := by
  rw [Numeral.exact, digitsValue_append, zpow_sub₀ (by norm_num), zpow_natCast]
  push_cast
  field_simp

/-- A numeral reads as its exact value rounded. -/
theorem Numeral.value_roundsTo (n : Numeral) (neg : Bool) : RoundsTo neg n.exact (n.value neg) := by
  rw [Numeral.exact_eq, Numeral.value]
  exact decimalValue_roundsTo neg _ _

/-! ## The reader -/

/-- What `read` does after the sign: a numeral, else a word. -/
def readBody (neg : Bool) (body : List UInt8) : Except Problem Binary64 :=
  match readNumeral body with
  | some n => .ok (n.value neg)
  | none =>
    match readWord body with
    | some x => .ok (if neg then x.negate else x)
    | none => .error .invalid

theorem read_cons (c : UInt8) (rest : List UInt8) :
    read (c :: rest) =
      if (if c = 45 ∨ c = 43 then rest else c :: rest) = [] then .error .invalid
      else readBody (decide (c = 45)) (if c = 45 ∨ c = 43 then rest else c :: rest) := by
  unfold read readBody
  dsimp only
  generalize (if c = 45 ∨ c = 43 then rest else c :: rest) = body
  split
  · rfl
  · cases readNumeral body with
    | some n => rfl
    | none =>
      cases readWord body with
      | some x => simp only [decide_eq_true_eq]
      | none => rfl

theorem Spells.head {s w : List UInt8} {c : UInt8} (h : Spells s (c :: w)) :
    ∃ b r, s = b :: r ∧ (b = c ∨ b = c + 32) := by
  obtain ⟨b, r, hb, -, rfl⟩ := List.forall₂_cons_right_iff.1 h
  exact ⟨b, r, rfl, hb⟩

/-- A word starts with a letter: `I`, `N` or their lower-case forms. -/
theorem word_head {s : List UInt8} (h : Spells s wordInf ∨ Spells s wordInfinity ∨ Spells s wordNan) :
    ∃ b r, s = b :: r ∧ ¬isDigit b ∧ b ≠ 46 ∧ b ≠ 45 ∧ b ≠ 43 := by
  have hhead : ∃ b r, s = b :: r ∧ (b = 73 ∨ b = 105 ∨ b = 78 ∨ b = 110) := by
    rcases h with h | h | h
    · obtain ⟨b, r, rfl, hb⟩ := h.head
      exact ⟨b, r, rfl, by rcases hb with rfl | rfl <;> decide⟩
    · obtain ⟨b, r, rfl, hb⟩ := h.head
      exact ⟨b, r, rfl, by rcases hb with rfl | rfl <;> decide⟩
    · obtain ⟨b, r, rfl, hb⟩ := h.head
      exact ⟨b, r, rfl, by rcases hb with rfl | rfl <;> decide⟩
  obtain ⟨b, r, rfl, hb⟩ := hhead
  exact ⟨b, r, rfl, by rcases hb with rfl | rfl | rfl | rfl <;> decide⟩

/-- Text that starts with neither a digit nor the point is no numeral. -/
theorem readNumeral_eq_none {b : UInt8} {r : List UInt8} (hd : ¬isDigit b) (hp : b ≠ 46) :
    readNumeral (b :: r) = none := by
  cases h : readNumeral (b :: r) with
  | none => rfl
  | some n =>
    obtain ⟨c, r', he, hc⟩ := (readNumeral_sound h).head
    obtain ⟨rfl, -⟩ := List.cons.inj he
    exact (hc.elim hd hp).elim

/-- A body starts with neither sign. -/
theorem BodyText.head {s : List UInt8} {sp : Spelled} (h : BodyText s sp) :
    ∃ c r, s = c :: r ∧ c ≠ 45 ∧ c ≠ 43 := by
  cases h with
  | number h =>
    obtain ⟨c, r, rfl, hc⟩ := h.head
    refine ⟨c, r, rfl, ?_⟩
    rcases hc with hc | rfl
    · exact isDigit_ne_sign hc
    · decide
  | infinity h =>
    obtain ⟨b, r, rfl, -, -, h45, h43⟩ := word_head (h.elim .inl (.inr ∘ .inl))
    exact ⟨b, r, rfl, h45, h43⟩
  | nan h =>
    obtain ⟨b, r, rfl, -, -, h45, h43⟩ := word_head (.inr (.inr h))
    exact ⟨b, r, rfl, h45, h43⟩

theorem decodes_infinity (neg : Bool) :
    Spelled.Decodes neg .infinity (if neg then (Binary64.infinity false).negate else Binary64.infinity false) := by
  simp only [Spelled.Decodes]
  cases neg <;> decide

theorem decodes_nan (neg : Bool) :
    Spelled.Decodes neg .nan (if neg then Binary64.nan.negate else Binary64.nan) := by
  simp only [Spelled.Decodes]
  cases neg <;> decide

theorem readBody_sound {neg : Bool} {body : List UInt8} {x : Binary64} (h : readBody neg body = .ok x) :
    ∃ sp, BodyText body sp ∧ sp.Decodes neg x := by
  unfold readBody at h
  split at h
  · rename_i n hn
    obtain rfl := (Except.ok.inj h).symm
    exact ⟨_, .number (readNumeral_sound hn), n.value_roundsTo neg⟩
  · split at h
    · rename_i y hy
      obtain rfl := (Except.ok.inj h).symm
      rcases readWord_eq_some_iff.1 hy with ⟨hs, rfl⟩ | ⟨hs, rfl⟩
      · exact ⟨.infinity, .infinity hs, decodes_infinity neg⟩
      · exact ⟨.nan, .nan hs, decodes_nan neg⟩
    · cases h

theorem readBody_complete {body : List UInt8} {sp : Spelled} (h : BodyText body sp) (neg : Bool) :
    ∃ x, readBody neg body = .ok x ∧ sp.Decodes neg x := by
  cases h with
  | number h =>
    rename_i n
    exact ⟨n.value neg, by simp only [readBody, readNumeral_complete h], n.value_roundsTo neg⟩
  | infinity h =>
    obtain ⟨b, r, rfl, hd, hp, -⟩ := word_head (h.elim .inl (.inr ∘ .inl))
    have hw : readWord (b :: r) = some (Binary64.infinity false) := readWord_eq_some_iff.2 (.inl ⟨h, rfl⟩)
    exact ⟨_, by simp only [readBody, readNumeral_eq_none hd hp, hw], decodes_infinity neg⟩
  | nan h =>
    obtain ⟨b, r, rfl, hd, hp, -⟩ := word_head (.inr (.inr h))
    have hw : readWord (b :: r) = some Binary64.nan := readWord_eq_some_iff.2 (.inr ⟨h, rfl⟩)
    exact ⟨_, by simp only [readBody, readNumeral_eq_none hd hp, hw], decodes_nan neg⟩

/-- Whatever the reader accepts is a literal, and what it gives decodes it. -/
theorem literal_of_read_eq_ok {text : List UInt8} {x : Binary64} (h : read text = .ok x) :
    ∃ neg sp, Literal text neg sp ∧ sp.Decodes neg x := by
  cases text with
  | nil => cases h
  | cons c rest =>
    rw [read_cons] at h
    by_cases hbody : (if c = 45 ∨ c = 43 then rest else c :: rest) = []
    · rw [if_pos hbody] at h
      cases h
    rw [if_neg hbody] at h
    obtain ⟨sp, hb, hd⟩ := readBody_sound h
    by_cases h45 : c = 45
    · subst h45
      rw [if_pos (.inl rfl)] at hb
      rw [decide_eq_true rfl] at hd
      exact ⟨true, sp, .mk .minus hb, hd⟩
    by_cases h43 : c = 43
    · subst h43
      rw [if_pos (.inr rfl)] at hb
      rw [decide_eq_false h45] at hd
      exact ⟨false, sp, .mk .plus hb, hd⟩
    have hns : ¬(c = 45 ∨ c = 43) := fun h' => h'.elim h45 h43
    rw [if_neg hns] at hb
    rw [decide_eq_false h45] at hd
    exact ⟨false, sp, .mk .none hb, hd⟩

/-- Every literal is read, as a number that decodes it. -/
theorem read_eq_ok_of_literal {text : List UInt8} {neg : Bool} {sp : Spelled} (h : Literal text neg sp) :
    ∃ x, read text = .ok x ∧ sp.Decodes neg x := by
  cases h with
  | mk hs hb =>
    obtain ⟨c, r, rfl, h45, h43⟩ := hb.head
    obtain ⟨x, hx, hd⟩ := readBody_complete hb neg
    refine ⟨x, ?_, hd⟩
    cases hs with
    | none =>
      have hns : ¬(c = 45 ∨ c = 43) := fun h' => h'.elim h45 h43
      rw [List.nil_append, read_cons, if_neg hns, if_neg (List.cons_ne_nil _ _), decide_eq_false h45]
      exact hx
    | plus =>
      have hs : (43 : UInt8) = 45 ∨ (43 : UInt8) = 43 := .inr rfl
      rw [List.singleton_append, read_cons, if_pos hs, if_neg (List.cons_ne_nil _ _),
        decide_eq_false (by decide)]
      exact hx
    | minus =>
      have hs : (45 : UInt8) = 45 ∨ (45 : UInt8) = 43 := .inl rfl
      rw [List.singleton_append, read_cons, if_pos hs, if_neg (List.cons_ne_nil _ _), decide_eq_true rfl]
      exact hx

end HandlerKit.FloatText

namespace HandlerKit.Tnetstring

open FloatText

theorem readScalar_float_eq_ok_iff {p : Bytes} {x : Binary64} :
    readScalar .float p = .ok (.float x) ↔ FloatText.read p = .ok x := by
  rw [readScalar_eq_ok_iff (by decide) (by decide)]
  constructor
  · rintro ⟨⟩
    assumption
  · exact .float

/-- **Float payloads.** A float frame's payload is read exactly when it is a float literal: a
sign, then a decimal numeral or `inf`, `infinity`, `nan` in any case. It reads as the literal's
value rounded to nearest, ties to even (to infinity or zero of the literal's sign past the
ends), as infinity, or as the quiet NaN with the literal's sign bit. Every other payload is
malformed. -/
theorem float_payload_read (p : Bytes) :
    ((∃ v, readScalar .float p = .ok v) ↔ ∃ neg sp, Literal p neg sp) ∧
    (∀ neg sp, Literal p neg sp → ∃ x, readScalar .float p = .ok (.float x) ∧ sp.Decodes neg x) ∧
    (∀ e, readScalar .float p = .error e → ∃ m, e = .malformed m) := by
  refine ⟨⟨fun ⟨v, hv⟩ => ?_, fun ⟨neg, sp, h⟩ => ?_⟩, fun neg sp h => ?_, fun e he => ?_⟩
  · -- an accepted payload is a float the reader gave
    rw [readScalar_eq_ok_iff (by decide) (by decide)] at hv
    cases hv with
    | float hx =>
      obtain ⟨neg, sp, hl, -⟩ := literal_of_read_eq_ok hx
      exact ⟨neg, sp, hl⟩
  · obtain ⟨x, hx, -⟩ := read_eq_ok_of_literal h
    exact ⟨.float x, readScalar_float_eq_ok_iff.2 hx⟩
  · obtain ⟨x, hx, hd⟩ := read_eq_ok_of_literal h
    exact ⟨x, readScalar_float_eq_ok_iff.2 hx, hd⟩
  · -- text that is not UTF-8, and text that is no float, are both malformed
    simp only [readScalar] at he
    split at he
    · exact ⟨_, (Except.error.inj he).symm⟩
    · split at he
      · cases he
      · exact ⟨_, (Except.error.inj he).symm⟩

/-- `-nan` reads as the quiet NaN with the sign bit set. -/
theorem float_payload_read_negative_nan :
    ∃ x, readScalar .float [45, 110, 97, 110] = .ok (.float x) ∧ x.bits = 0xFFF8000000000000 :=
  (float_payload_read [45, 110, 97, 110]).2.1 true .nan
    (.mk .minus (.nan (.cons (.inr rfl) (.cons (.inr rfl) (.cons (.inr rfl) .nil)))))

end HandlerKit.Tnetstring
