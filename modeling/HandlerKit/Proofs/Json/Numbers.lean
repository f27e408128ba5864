import HandlerKit.Proofs.Json.Reading
import HandlerKit.Proofs.Tokens

/-!
# Numbers in JSON text

A number is read by a chain of small readers: the sign, the whole digits, a fraction, an
exponent. Each one looks at one byte and either takes it or stops.

**Numbers end where values end** (`StopsAtEnd`). None of the readers takes a blank, a comma or
a closing bracket, and the float a number stands for does not depend on what follows it. So a
number read from some bytes is read the same when those bytes are followed by the end of a
value (`stopsAtEnd_number`), and leaves that end unread.

**Integers** (`value_intText`). The text of a 64-bit integer is its decimal digits, after a
minus sign when it is negative. Reading it back gives the same integer: a non-negative one as a
whole number below `2^63`, a negative one, down to `-2^63`, through the negative path.

**Floats** (`value_append_of_parse_float`). A text that the reader takes alone as a float, it
takes the same way before the end of a value.
-/

namespace HandlerKit.Json

/-! ## Numbers end where values end -/

/-- A reader that stops where a value may end: what it reads from `p`, it reads the same from
`p` followed by the end of a value, which it leaves unread. -/
def StopsAtEnd {α : Type} (f : (r : Bytes) → Step r α) : Prop :=
  ∀ {p s : Bytes} {a : α} {rest : Bytes}, Ends s → (f p).out = .ok (a, rest) →
    (f (p ++ s)).out = .ok (a, rest ++ s)

/-- Followed by nothing, any reader reads the same; so only a byte that may end a value needs
to be looked at. -/
theorem StopsAtEnd.of_cons {α : Type} {f : (r : Bytes) → Step r α}
    (h : ∀ {p c s a rest}, Ends (c :: s) → (f p).out = .ok (a, rest) →
      (f (p ++ c :: s)).out = .ok (a, rest ++ c :: s)) : StopsAtEnd f := by
  intro p s a rest hs hp
  cases s with
  | nil => rw [List.append_nil, List.append_nil]; exact hp
  | cons c s => exact h hs hp

theorem skipDigits_append {s : Bytes} (hs : Ends s) :
    ∀ p : Bytes, (skipDigits (p ++ s)).1 = (skipDigits p).1 ++ s
  | [] => by
    cases s with
    | nil => rfl
    | cons c s =>
      show (skipDigits (c :: s)).1 = c :: s
      rw [skipDigits, if_neg (by simp [hs.not_number.1])]
      rfl
  | c :: p => by
    rw [List.cons_append, skipDigits, skipDigits]
    by_cases hc : isDigit c = true
    · rw [if_pos hc, if_pos hc]
      exact skipDigits_append hs p
    · rw [if_neg hc, if_neg hc]
      rfl

/-- The float of a significand and an exponent does not depend on what follows the number. -/
theorem scale_ok_congr {r r' : Bytes} {f : Binary64} {e : Int} {x : Binary64}
    (h : fromParts.scale r f e = .ok x) : fromParts.scale r' f e = .ok x := by
  induction f, e using fromParts.scale.induct with
  | case1 f e h1 h2 g hinf =>
    rw [fromParts.scale, if_pos h1, if_pos h2, if_pos hinf] at h
    cases h
  | case2 f e h1 h2 g hinf =>
    rw [fromParts.scale, if_pos h1, if_pos h2, if_neg hinf] at h
    rw [fromParts.scale, if_pos h1, if_pos h2, if_neg hinf, h]
  | case3 f e h1 h2 =>
    rw [fromParts.scale, if_pos h1, if_neg h2] at h
    rw [fromParts.scale, if_pos h1, if_neg h2, h]
  | case4 f e h1 hz =>
    rw [fromParts.scale, if_neg h1, if_pos hz] at h
    rw [fromParts.scale, if_neg h1, if_pos hz, h]
  | case5 f e h1 hz h2 =>
    rw [fromParts.scale, if_neg h1, if_neg hz, if_pos h2] at h
    cases h
  | case6 f e h1 hz h2 ih =>
    rw [fromParts.scale, if_neg h1, if_neg hz, if_neg h2] at h
    rw [fromParts.scale, if_neg h1, if_neg hz, if_neg h2]
    exact ih h

theorem fromParts_ok_congr {positive : Bool} {sig : Nat} {e : Int} {r r' : Bytes} {x : Binary64}
    (h : fromParts positive sig e r = .ok x) : fromParts positive sig e r' = .ok x := by
  obtain ⟨y, hy, rfl⟩ := map_eq_ok.1 h
  exact map_eq_ok.2 ⟨y, scale_ok_congr hy, rfl⟩

theorem numberValue_ok_congr {k : Number} {r r' : Bytes} {v : Value}
    (h : numberValue k r = .ok v) : numberValue k r' = .ok v := by
  cases k with
  | whole n =>
    unfold numberValue at h ⊢
    dsimp only at h ⊢
    by_cases hn : n < Nat.pow 2 63
    · rw [if_pos hn] at h ⊢
      exact h
    · rw [if_neg hn] at h
      cases h
  | negative n => exact h
  | float x => exact h

section Chain

variable {positive : Bool} {sig : Nat}

theorem out_finishFloat (e : Int) (r : Bytes) :
    (finishFloat positive sig e r).out = (fromParts positive sig e r).map fun x => (x, r) := by
  unfold finishFloat
  cases fromParts positive sig e r <;> rfl

theorem finishFloat_append {e : Int} {p : Bytes} (s : Bytes) {a : Binary64} {rest : Bytes}
    (h : (finishFloat positive sig e p).out = .ok (a, rest)) :
    (finishFloat positive sig e (p ++ s)).out = .ok (a, rest ++ s) := by
  rw [out_finishFloat] at h ⊢
  obtain ⟨x, hx, hxe⟩ := map_eq_ok.1 h
  obtain ⟨rfl, rfl⟩ := Prod.mk.inj hxe
  rw [fromParts_ok_congr hx]
  rfl

theorem stopsAtEnd_exponentOverflow (zeroSig positiveExp : Bool) :
    StopsAtEnd (exponentOverflow positive zeroSig positiveExp) := by
  intro p s a rest hs h
  unfold exponentOverflow at h ⊢
  by_cases ho : (!zeroSig && positiveExp) = true
  · rw [if_pos ho] at h
    cases h
  · rw [if_neg ho] at h ⊢
    obtain ⟨rfl, rfl⟩ := Prod.mk.inj (Except.ok.inj h)
    show Except.ok (_, (skipDigits (p ++ s)).1) = _
    rw [skipDigits_append hs]

theorem stopsAtEnd_exponentDigits (positiveExp : Bool) (start : Int) (exp : Nat) :
    StopsAtEnd (exponentDigits positive sig positiveExp start exp) := by
  refine StopsAtEnd.of_cons fun {p c s a rest} hs h => ?_
  induction p generalizing exp with
  | nil =>
    rw [exponentDigits] at h
    rw [List.nil_append, exponentDigits, if_neg (by simp [hs.not_number.1])]
    exact finishFloat_append (c :: s) h
  | cons b p ih =>
    rw [exponentDigits] at h
    rw [List.cons_append, exponentDigits]
    by_cases hb : isDigit b = true
    · rw [if_pos hb] at h ⊢
      dsimp only at h ⊢
      by_cases ho : Nat.pow 2 31 - 1 < exp * 10 + digitValue b
      · rw [if_pos ho, out_widen] at h ⊢
        exact stopsAtEnd_exponentOverflow _ _ hs h
      · rw [if_neg ho, out_widen] at h
        rw [if_neg ho, out_widen]
        exact ih _ h
    · rw [if_neg hb] at h ⊢
      exact finishFloat_append (c :: s) h

theorem stopsAtEnd_exponentBody (positiveExp : Bool) (start : Int) :
    StopsAtEnd (exponentBody positive sig positiveExp start) := by
  intro p s a rest hs h
  cases p with
  | nil => cases h
  | cons c p =>
    rw [exponentBody] at h
    rw [List.cons_append, exponentBody]
    by_cases hc : isDigit c = true
    · rw [if_pos hc, out_widen] at h
      rw [if_pos hc, out_widen]
      exact stopsAtEnd_exponentDigits positiveExp start _ hs h
    · rw [if_neg hc] at h
      cases h

theorem stopsAtEnd_exponent (start : Int) : StopsAtEnd (exponent positive sig start) := by
  intro p s a rest hs h
  cases p with
  | nil => cases h
  | cons b p =>
    by_cases h43 : b = 43
    · subst h43
      rw [exponent, out_widen] at h
      rw [List.cons_append, exponent, out_widen]
      exact stopsAtEnd_exponentBody true start hs h
    by_cases h45 : b = 45
    · subst h45
      rw [exponent, out_widen] at h
      rw [List.cons_append, exponent, out_widen]
      exact stopsAtEnd_exponentBody false start hs h
    -- any other byte is the first of the exponent's digits
    have hb : ∀ x : UInt8, b ≠ x → ∀ t : Bytes, b :: (p ++ s) = x :: t → False :=
      fun x hx t ht => hx (List.cons.inj ht).1
    have hb' : ∀ x : UInt8, b ≠ x → ∀ t : Bytes, b :: p = x :: t → False :=
      fun x hx t ht => hx (List.cons.inj ht).1
    rw [exponent.eq_3 _ _ _ _ (hb' 43 h43) (hb' 45 h45)] at h
    rw [List.cons_append, exponent.eq_3 _ _ _ _ (hb 43 h43) (hb 45 h45), ← List.cons_append]
    exact stopsAtEnd_exponentBody true start hs h

theorem stopsAtEnd_afterDigits (e : Int) : StopsAtEnd (afterDigits positive sig e) := by
  refine StopsAtEnd.of_cons fun {p c s a rest} hs h => ?_
  cases p with
  | nil =>
    rw [afterDigits] at h
    rw [List.nil_append, afterDigits, if_neg (by simp [hs.not_number.2.2])]
    exact finishFloat_append (c :: s) h
  | cons b p =>
    rw [afterDigits] at h
    rw [List.cons_append, afterDigits]
    by_cases hb : isExponentMark b = true
    · rw [if_pos hb, out_widen] at h ⊢
      exact stopsAtEnd_exponent e hs h
    · rw [if_neg hb] at h ⊢
      exact finishFloat_append (c :: s) h

theorem stopsAtEnd_fractionOverflow (e : Int) : StopsAtEnd (fractionOverflow positive sig e) := by
  intro p s a rest hs h
  unfold fractionOverflow at h ⊢
  rw [out_widen] at h ⊢
  rw [skipDigits_append hs]
  exact stopsAtEnd_afterDigits e hs h

theorem stopsAtEnd_fractionDigits (before : Int) :
    ∀ (m count : Nat), StopsAtEnd (fractionDigits positive m before count) := by
  intro m count
  refine StopsAtEnd.of_cons fun {p c s a rest} hs h => ?_
  induction p generalizing m count with
  | nil =>
    rw [fractionDigits] at h
    rw [List.nil_append, fractionDigits, if_neg (by simp [hs.not_number.1])]
    by_cases hc : count = 0
    · rw [if_pos hc] at h
      cases h
    · rw [if_neg hc] at h ⊢
      exact stopsAtEnd_afterDigits _ hs h
  | cons b p ih =>
    rw [fractionDigits] at h
    rw [List.cons_append, fractionDigits]
    by_cases hb : isDigit b = true
    · rw [if_pos hb] at h ⊢
      by_cases ho : Nat.pow 2 64 ≤ m * 10 + digitValue b
      · rw [if_pos ho] at h ⊢
        rw [← List.cons_append]
        exact stopsAtEnd_fractionOverflow _ hs h
      · rw [if_neg ho, out_widen] at h ⊢
        exact ih _ _ h
    · rw [if_neg hb] at h ⊢
      by_cases hc : count = 0
      · rw [if_pos hc] at h
        cases h
      · rw [if_neg hc] at h ⊢
        rw [← List.cons_append]
        exact stopsAtEnd_afterDigits _ hs h

theorem stopsAtEnd_longWhole : ∀ exp : Nat, StopsAtEnd (longWhole positive sig exp) := by
  intro exp
  refine StopsAtEnd.of_cons fun {p c s a rest} hs h => ?_
  obtain ⟨hd, hp, he⟩ := hs.not_number
  induction p generalizing exp with
  | nil =>
    rw [longWhole] at h
    rw [List.nil_append, longWhole, if_neg (by simp [hd]), if_neg hp, if_neg (by simp [he])]
    exact finishFloat_append (c :: s) h
  | cons b p ih =>
    rw [longWhole] at h
    rw [List.cons_append, longWhole]
    by_cases hb : isDigit b = true
    · rw [if_pos hb, out_widen] at h ⊢
      exact ih _ h
    rw [if_neg hb] at h ⊢
    by_cases hb46 : b = 46
    · rw [if_pos hb46, out_widen] at h ⊢
      exact stopsAtEnd_fractionDigits _ _ _ hs h
    rw [if_neg hb46] at h ⊢
    by_cases hbe : isExponentMark b = true
    · rw [if_pos hbe, out_widen] at h ⊢
      exact stopsAtEnd_exponent _ hs h
    · rw [if_neg hbe] at h ⊢
      exact finishFloat_append (c :: s) h

theorem stopsAtEnd_afterWhole : StopsAtEnd (afterWhole positive sig) := by
  refine StopsAtEnd.of_cons fun {p c s a rest} hs h => ?_
  obtain ⟨-, hp, he⟩ := hs.not_number
  cases p with
  | nil =>
    rw [afterWhole] at h
    obtain ⟨rfl, rfl⟩ := Prod.mk.inj (Except.ok.inj h)
    rw [List.nil_append, afterWhole, if_neg hp, if_neg (by simp [he])]
    rfl
  | cons b p =>
    rw [afterWhole] at h
    rw [List.cons_append, afterWhole]
    by_cases hb46 : b = 46
    · rw [if_pos hb46, out_map, out_widen] at h ⊢
      obtain ⟨⟨x, r⟩, hx, hxe⟩ := map_eq_ok.1 h
      obtain ⟨rfl, rfl⟩ := Prod.mk.inj hxe
      rw [stopsAtEnd_fractionDigits _ _ _ hs hx]
      rfl
    rw [if_neg hb46] at h ⊢
    by_cases hbe : isExponentMark b = true
    · rw [if_pos hbe, out_map, out_widen] at h ⊢
      obtain ⟨⟨x, r⟩, hx, hxe⟩ := map_eq_ok.1 h
      obtain ⟨rfl, rfl⟩ := Prod.mk.inj hxe
      rw [stopsAtEnd_exponent _ hs hx]
      rfl
    · rw [if_neg hbe] at h ⊢
      obtain ⟨rfl, rfl⟩ := Prod.mk.inj (Except.ok.inj h)
      rfl

end Chain

theorem stopsAtEnd_wholeDigits {positive : Bool} :
    ∀ sig : Nat, StopsAtEnd (wholeDigits positive sig) := by
  intro sig
  refine StopsAtEnd.of_cons fun {p c s a rest} hs h => ?_
  induction p generalizing sig with
  | nil =>
    rw [wholeDigits] at h
    rw [List.nil_append, wholeDigits, if_neg (by simp [hs.not_number.1])]
    exact stopsAtEnd_afterWhole hs h
  | cons b p ih =>
    rw [wholeDigits] at h
    rw [List.cons_append, wholeDigits]
    by_cases hb : isDigit b = true
    · rw [if_pos hb] at h ⊢
      by_cases ho : Nat.pow 2 64 ≤ sig * 10 + digitValue b
      · rw [if_pos ho, out_map] at h ⊢
        obtain ⟨⟨x, r⟩, hx, hxe⟩ := map_eq_ok.1 h
        obtain ⟨rfl, rfl⟩ := Prod.mk.inj hxe
        rw [← List.cons_append, stopsAtEnd_longWhole _ hs hx]
        rfl
      · rw [if_neg ho, out_widen] at h ⊢
        exact ih _ h
    · rw [if_neg hb] at h ⊢
      rw [← List.cons_append]
      exact stopsAtEnd_afterWhole hs h

theorem stopsAtEnd_number {positive : Bool} : StopsAtEnd (number positive) := by
  refine StopsAtEnd.of_cons fun {p c s a rest} hs h => ?_
  cases p with
  | nil => cases h
  | cons b p =>
    rw [List.cons_append]
    by_cases hb : b = 48
    · subst hb
      -- a leading zero stands alone: what follows it is read after the whole part
      cases p with
      | nil =>
        rw [number, if_pos rfl, out_widen] at h
        rw [List.nil_append, number, if_pos rfl, if_neg (by simp [hs.not_number.1]), out_widen]
        exact stopsAtEnd_afterWhole hs h
      | cons d p =>
        rw [number, if_pos rfl] at h
        rw [List.cons_append, number, if_pos rfl]
        by_cases hd : isDigit d = true
        · rw [if_pos hd] at h
          cases h
        · rw [if_neg hd, out_widen] at h ⊢
          rw [← List.cons_append]
          exact stopsAtEnd_afterWhole hs h
    · rw [number.eq_def] at h ⊢
      dsimp only at h ⊢
      rw [if_neg hb] at h ⊢
      by_cases hd : isDigit b = true
      · rw [if_pos hd, out_widen] at h ⊢
        exact stopsAtEnd_wholeDigits _ hs h
      · rw [if_neg hd] at h
        cases h

theorem numberOut_append {positive : Bool} {p s : Bytes} {v : Value} {rest : Bytes} (hs : Ends s)
    (h : numberOut (number positive p) = .ok (v, rest)) :
    numberOut (number positive (p ++ s)) = .ok (v, rest ++ s) := by
  obtain ⟨⟨k, r⟩, hk, h⟩ := bind_eq_ok.1 h
  obtain ⟨w, hw, hwe⟩ := map_eq_ok.1 h
  obtain ⟨rfl, rfl⟩ := Prod.mk.inj hwe
  exact bind_eq_ok.2 ⟨_, stopsAtEnd_number hs hk, map_eq_ok.2 ⟨_, numberValue_ok_congr hw, rfl⟩⟩


/-! ## Integers -/

theorem not_blank_of_digit {c : UInt8} (h : isDigit c = true) : isBlank c = false := by
  simp only [isDigit, Bool.and_eq_true, decide_eq_true_eq, UInt8.le_iff_toNat_le] at h
  simp only [isBlank, Bool.or_eq_false_iff, decide_eq_false_iff_not]
  refine ⟨⟨⟨?_, ?_⟩, ?_⟩, ?_⟩ <;> intro hc <;> rw [hc] at h <;> simp at h

theorem le_foldl_digits : ∀ (ds : Bytes) (acc : Nat),
    acc ≤ ds.foldl (fun a b => a * 10 + digitValue b) acc
  | [], _ => Nat.le_refl _
  | b :: ds, acc => by
    rw [List.foldl_cons]
    exact Nat.le_trans (by omega) (le_foldl_digits ds _)

/-- Whole digits whose value stays below `2^64` are read as that whole number. -/
theorem wholeDigits_digits {positive : Bool} :
    ∀ (ds : Bytes) (sig : Nat), (∀ b ∈ ds, isDigit b = true) →
      ds.foldl (fun a b => a * 10 + digitValue b) sig < Nat.pow 2 64 →
      (wholeDigits positive sig ds).out =
        .ok (wholeNumber positive (ds.foldl (fun a b => a * 10 + digitValue b) sig), [])
  | [], sig, _, _ => by
    rw [wholeDigits, afterWhole]
    rfl
  | b :: ds, sig, hd, hlt => by
    rw [List.foldl_cons] at hlt ⊢
    have hle := le_foldl_digits ds (sig * 10 + digitValue b)
    rw [wholeDigits, if_pos (hd b List.mem_cons_self), if_neg (by omega), out_widen]
    exact wholeDigits_digits ds _ (fun x hx => hd x (List.mem_cons_of_mem b hx)) hlt

/-- The decimal digits of a number other than zero do not start with zero. -/
theorem toDigits_ne_zero_cons : ∀ {n : Nat}, n ≠ 0 → ∀ cs, Nat.toDigits 10 n ≠ '0' :: cs
  | n, hn, cs, h => by
    by_cases h10 : n < 10
    · rw [Nat.toDigits_of_lt_base h10] at h
      exact hn (Nat.digitChar_eq_zero.1 (List.cons.inj h).1)
    · rw [Nat.toDigits_of_base_le (by decide) (by omega)] at h
      cases hq : Nat.toDigits 10 (n / 10) with
      | nil => exact Nat.toDigits_ne_nil hq
      | cons c cs' =>
        rw [hq, List.cons_append] at h
        obtain ⟨rfl, -⟩ := List.cons.inj h
        exact toDigits_ne_zero_cons (n := n / 10) (by omega) cs' hq
termination_by n => n
decreasing_by omega

theorem decimal_isDigit (n : Nat) : ∀ b ∈ Reply.decimal n, isDigit b = true :=
  Reply.decimal_digits n

/-- The digits of a number start with zero only for zero itself. -/
theorem decimal_eq_cons (n : Nat) : ∃ c ds, Reply.decimal n = c :: ds ∧ (c = 48 → n = 0) := by
  rw [Reply.decimal_eq_map]
  cases hd : Nat.toDigits 10 n with
  | nil => exact absurd hd Nat.toDigits_ne_nil
  | cons ch chs =>
    refine ⟨ch.toNat.toUInt8, _, rfl, fun h48 => ?_⟩
    have hch := Reply.toNat_of_mem_toDigits (hd ▸ List.mem_cons_self : ch ∈ Nat.toDigits 10 n)
    have h48' : ch.toNat = 48 := by
      have := congrArg UInt8.toNat h48
      rwa [Utf8.toNat_toUInt8 (by omega)] at this
    have hch0 : ch = '0' := by rw [← Char.ofNat_toNat ch, h48']
    rcases Nat.eq_zero_or_pos n with h0 | hpos
    · exact h0
    · exact absurd (hch0 ▸ hd) (toDigits_ne_zero_cons (by omega) chs)

/-- The digits of a number below `2^64`, read as a number with either sign. -/
theorem number_decimal (positive : Bool) {n : Nat} (hn : n < Nat.pow 2 64) :
    (number positive (Reply.decimal n)).out = .ok (wholeNumber positive n, []) := by
  rcases Nat.eq_zero_or_pos n with rfl | hpos
  · rw [show Reply.decimal 0 = [48] by rw [Reply.decimal_eq_map, Nat.toDigits_zero]; rfl, number,
      if_pos rfl, out_widen, afterWhole]
    rfl
  obtain ⟨c, ds, hcd, h48⟩ := decimal_eq_cons n
  have hdig := decimal_isDigit n
  have hval : ds.foldl (fun a b => a * 10 + digitValue b) (digitValue c) = n := by
    have := Reply.digitsValue_decimal n
    rw [hcd, Tnetstring.digitsValue, List.foldl_cons, Nat.zero_mul, Nat.zero_add] at this
    exact this
  rw [hcd] at hdig ⊢
  rw [number.eq_def]
  dsimp only
  rw [if_neg (fun hc => absurd (h48 hc) (by omega)), if_pos (hdig c List.mem_cons_self), out_widen,
    wholeDigits_digits ds _ (fun b hb => hdig b (List.mem_cons_of_mem c hb)) (hval ▸ hn), hval]

theorem numberOut_of_out {r : Bytes} {x : Step r Number} {k : Number} {rest : Bytes}
    (h : x.out = .ok (k, rest)) : numberOut x = (numberValue k rest).map fun v => (v, rest) := by
  unfold numberOut
  rw [h]
  rfl

/-- The text of a 64-bit integer is read back as that integer before the end of a value: a
non-negative one as a whole number below `2^63`, a negative one through the negative path. -/
theorem value_intText (n : Int64) {d : Nat} {s : Bytes} (hs : Ends s) :
    (value d (Bytes.ofString (toString n.toInt) ++ s)).out = .ok (.int n, s) := by
  have hlt := n.toInt_lt
  have hge := n.le_toInt
  cases h : n.toInt with
  | ofNat m =>
    have hm : m < Nat.pow 2 63 := by
      rw [h] at hlt
      have : (m : Int) < 2 ^ 63 := hlt
      simp only [Nat.pow_eq] at *
      omega
    have hnum : numberOut (number true (Reply.decimal m)) = .ok (.int n, []) := by
      rw [numberOut_of_out (number_decimal true (Nat.lt_trans hm (by decide)))]
      show ((if m < Nat.pow 2 63 then .ok (.int (Int64.ofNat m)) else _) : Except Stop Value).map _ = _
      rw [if_pos hm]
      have hn : Int64.ofNat m = n := Int64.toInt.inj (by rw [Int64.toInt_ofNat_of_lt (by simpa using hm), h]; rfl)
      rw [hn]
      rfl
    obtain ⟨c, ds, hcd, -⟩ := decimal_eq_cons m
    have hc : isDigit c = true := decimal_isDigit m c (hcd ▸ List.mem_cons_self)
    show (value d (Reply.decimal m ++ s)).out = _
    have hsk : (skipBlank (Reply.decimal m ++ s)).1 = c :: (ds ++ s) := by
      rw [hcd, List.cons_append, skipBlank_of_not_blank _ (not_blank_of_digit hc)]
      rfl
    rw [value_of_digit hsk hc, ← List.cons_append, ← hcd]
    exact numberOut_append hs hnum
  | negSucc m =>
    have hm : m + 1 ≤ Nat.pow 2 63 := by
      rw [h] at hge
      have : -2 ^ 63 ≤ Int.negSucc m := hge
      rw [Int.negSucc_eq] at this
      simp only [Nat.pow_eq] at *
      omega
    have hnum : numberOut (number false (Reply.decimal (m + 1))) = .ok (.int n, []) := by
      rw [numberOut_of_out (number_decimal false (Nat.lt_of_le_of_lt hm (by decide)))]
      have hw : wholeNumber false (m + 1) = .negative (-((m + 1 : Nat) : Int)) := by
        rw [wholeNumber, if_neg (by simp), if_neg (by omega)]
      rw [hw]
      show (Except.ok (Value.int (Int64.ofInt _)) : Except Stop Value).map _ = _
      have hn : Int64.ofInt (-((m + 1 : Nat) : Int)) = n := by
        rw [← Int64.ofInt_toInt n, h, Int.negSucc_eq]
        rfl
      rw [hn]
      rfl
    have hbytes : Bytes.ofString (toString (Int.negSucc m)) = 45 :: Reply.decimal (m + 1) := by
      show Bytes.ofString ("-" ++ toString (m + 1)) = _
      rw [Utf8.ofString_append, show Bytes.ofString "-" = [45] by rw [Utf8.ofString_eq_encode]; rfl]
      rfl
    have hsk : (skipBlank (Bytes.ofString (toString (Int.negSucc m)) ++ s)).1 =
        45 :: (Reply.decimal (m + 1) ++ s) := by
      rw [hbytes, List.cons_append, skipBlank_of_not_blank _ (by decide)]
      rfl
    rw [value_of_minus hsk]
    exact numberOut_append hs hnum

/-! ## Floats -/

theorem readText_of_parse {limit : Nat} {text : Bytes} {v : Value}
    (h : parse limit text = .ok v) : readText text = .ok v := by
  unfold parse at h
  cases hr : readText text with
  | error st =>
    rw [hr] at h
    dsimp only at h
    split at h <;> cases h
  | ok w =>
    rw [hr] at h
    dsimp only at h
    split at h
    · cases h
    · cases h
      rfl

/-- A whole text is one value followed by white space only. -/
theorem value_of_readText {text : Bytes} {v : Value} (h : readText text = .ok v) :
    ∃ rest, (value recursionLimit text).out = .ok (v, rest) ∧ (skipBlank rest).1 = [] := by
  unfold readText at h
  cases hv : value recursionLimit text with
  | error e =>
    rw [hv] at h
    cases h
  | ok p =>
    obtain ⟨w, rest⟩ := p
    rw [hv] at h
    dsimp only at h
    refine ⟨rest.1, ?_, ?_⟩
    · cases hsk : skipBlank rest.1 with
      | mk t ht =>
        rw [hsk] at h
        cases t with
        | nil => cases h; rfl
        | cons c t => cases h
    · cases hsk : skipBlank rest.1 with
      | mk t ht =>
        rw [hsk] at h
        cases t with
        | nil => rfl
        | cons c t => cases h

/-- A text the reader takes alone as a float, it takes the same way before the end of a value,
leaving the white space that followed the number and then that end. -/
theorem value_append_of_parse_float {text : Bytes} {x : Binary64} {d : Nat} {s : Bytes}
    (h : parse defaultDepth text = .ok (.float x)) (hs : Ends s) :
    ∃ bl, Blanks bl ∧ (value d (text ++ s)).out = .ok (.float x, bl ++ s) := by
  obtain ⟨rest, hv, hrest⟩ := value_of_readText (readText_of_parse h)
  refine ⟨rest, blanks_of_skipBlank_nil hrest, ?_⟩
  obtain ⟨c, t, hsk, hcases⟩ := value_eq_ok hv
  have hsk' := skipBlank_append_of_skipBlank s hsk
  -- only the two number branches give a float
  rcases hcases with ⟨-, hx, -⟩ | ⟨-, hx, -⟩ | ⟨-, hx, -⟩ | ⟨rfl, hn⟩ | ⟨hc, hn⟩ |
    ⟨-, b, -, hx⟩ | ⟨-, d', xs, -, -, hx⟩ | ⟨-, d', es, -, -, hx⟩
  all_goals try cases hx
  · rw [value_of_minus hsk']
    exact numberOut_append hs hn
  · rw [value_of_digit hsk' hc, ← List.cons_append]
    exact numberOut_append hs hn

end HandlerKit.Json
