import HandlerKit.Proofs.Binary64
import HandlerKit.Proofs.Json.Numbers
import HandlerKit.Proofs.Json.Representable
import HandlerKit.Proofs.Json.Strings

/-!
# What the reader gives can be written

Reading UTF-8 text, the reader only gives values that JSON can carry
(`Value.Representable`), so writing a value read never fails.

**Sound readers** (`Sound`). A reader is sound for a property when, reading valid UTF-8 text,
whatever it gives has the property and what it leaves is valid UTF-8 text. White space, the
letters of a word, the bytes of a number, commas and colons are all ASCII, so skipping them
keeps the text valid (`Utf8.isValid_cons`); a string's bytes are UTF-8 and so is what follows
it (`stringBody_isValid`).

**Floats are finite** (`sound_number`). A float is a significand rounded to binary64, then
multiplied by powers of ten while the product is not infinite, or divided by them: a product
that is not infinite is finite, and a quotient by a power of ten is finite
(`Binary64.isFinite_div`). A whole number below `2^64` read as a float is finite too.

**Containers** (`sound_arrayItems`, `sound_objectEntries`). By the readers' own recursion: each
item or entry is read from valid text and leaves valid text. An object's entries are inserted
one by one into ascending entries, so its keys ascend (`Value.keysAscend_insertEntry`).

**Theorem (`representable_of_parse`).** A value parsed from a text is representable.
-/

namespace HandlerKit.Json

open Utf8 (isValid)
open Value (Representable)

/-! ## Sound readers -/

/-- A reader is sound for `P` when, reading valid UTF-8 text, whatever it gives satisfies `P`
and what it leaves is valid UTF-8 text. -/
def Sound {α : Type} (P : α → Prop) (f : (r : Bytes) → Step r α) : Prop :=
  ∀ {r : Bytes} {a : α} {rest : Bytes}, isValid r = true → (f r).out = .ok (a, rest) →
    P a ∧ isValid rest = true

theorem length_le_of_out {α : Type} {r : Bytes} {x : Step r α} {a : α} {rest : Bytes}
    (h : x.out = .ok (a, rest)) : rest.length ≤ r.length := by
  cases x with
  | error e => cases h
  | ok p =>
    cases h
    exact p.2.2

theorem isValid_of_cons {c : UInt8} {s : Bytes} (hc : c.toNat < 0x80) (h : isValid (c :: s) = true) :
    isValid s = true := by
  rwa [Utf8.isValid_cons s hc] at h

theorem ascii_of_blank {c : UInt8} (h : isBlank c = true) : c.toNat < 0x80 := by
  simp only [isBlank, Bool.or_eq_true, decide_eq_true_eq] at h
  rcases h with ((rfl | rfl) | rfl) | rfl <;> decide

theorem ascii_of_digit {c : UInt8} (h : isDigit c = true) : c.toNat < 0x80 := by
  simp only [isDigit, Bool.and_eq_true, decide_eq_true_eq, UInt8.le_iff_toNat_le] at h
  exact Nat.lt_of_le_of_lt h.2 (by decide)

theorem isValid_skipBlank : ∀ {r : Bytes}, isValid r = true → isValid (skipBlank r).1 = true
  | [], h => h
  | c :: s, h => by
    cases hc : isBlank c with
    | true =>
      rw [skipBlank_cons_blank s hc]
      exact isValid_skipBlank (isValid_of_cons (ascii_of_blank hc) h)
    | false =>
      rw [skipBlank_val_of_not_blank s hc]
      exact h

theorem isValid_skipDigits : ∀ {r : Bytes}, isValid r = true → isValid (skipDigits r).1 = true
  | [], h => h
  | c :: s, h => by
    rw [skipDigits]
    cases hc : isDigit c with
    | true =>
      rw [if_pos rfl]
      exact isValid_skipDigits (isValid_of_cons (ascii_of_digit hc) h)
    | false =>
      rw [if_neg (by decide)]
      exact h

/-- A word read leaves what follows its letters. -/
theorem eq_append_of_word : ∀ {w s rest : Bytes}, (word w s).map Subtype.val = .ok rest → s = w ++ rest
  | [], s, rest, h => by
    cases h
    rfl
  | _ :: _, [], _, h => by cases h
  | b :: w, c :: s, rest, h => by
    rw [word] at h
    by_cases hb : b = c
    · rw [if_pos hb] at h
      obtain ⟨x, hx, rfl⟩ := map_eq_ok.1 h
      obtain ⟨y, hy, rfl⟩ := map_eq_ok.1 hx
      have hs : s = w ++ y.1 := eq_append_of_word (by rw [hy]; rfl)
      show c :: s = b :: (w ++ y.1)
      rw [hb, ← hs]
    · rw [if_neg hb] at h
      cases h

/-! ## Floats are finite -/

theorem isFinite_scale {r : Bytes} {f : Binary64} {e : Int} {x : Binary64}
    (h : fromParts.scale r f e = .ok x) : x.isFinite = true := by
  induction f, e using fromParts.scale.induct with
  | case1 f e h1 h2 g hinf =>
    rw [fromParts.scale, if_pos h1, if_pos h2, if_pos hinf] at h
    cases h
  | case2 f e h1 h2 g hinf =>
    rw [fromParts.scale, if_pos h1, if_pos h2, if_neg hinf] at h
    cases h
    exact Binary64.isFinite_mul_of_not_isInfinite (by simpa using hinf)
  | case3 f e h1 h2 =>
    -- a negative exponent divides by at least ten
    rw [fromParts.scale, if_pos h1, if_neg h2] at h
    cases h
    exact Binary64.isFinite_div f (Binary64.biased_pow10 (by omega))
  | case4 f e h1 hz =>
    rw [fromParts.scale, if_neg h1, if_pos hz] at h
    cases h
    exact Binary64.isFinite_of_isZero hz
  | case5 f e h1 hz h2 =>
    rw [fromParts.scale, if_neg h1, if_neg hz, if_pos h2] at h
    cases h
  | case6 f e h1 hz h2 ih =>
    rw [fromParts.scale, if_neg h1, if_neg hz, if_neg h2] at h
    exact ih h

theorem isFinite_fromParts {positive : Bool} {sig : Nat} {e : Int} {r : Bytes} {x : Binary64}
    (h : fromParts positive sig e r = .ok x) : x.isFinite = true := by
  obtain ⟨y, hy, rfl⟩ := map_eq_ok.1 h
  have := isFinite_scale hy
  cases positive
  · rwa [if_neg (by decide), Binary64.isFinite_negate]
  · rwa [if_pos rfl]

section Chain

variable {positive : Bool} {sig : Nat}

theorem sound_finishFloat (e : Int) {r : Bytes} {x : Binary64} {rest : Bytes} (hr : isValid r = true)
    (h : (finishFloat positive sig e r).out = .ok (x, rest)) : x.isFinite = true ∧ isValid rest = true := by
  unfold finishFloat at h
  obtain ⟨⟨y, r'⟩, hy, hye⟩ := map_eq_ok.1 h
  obtain ⟨y', hy', hyy⟩ := map_eq_ok.1 hy
  cases hyy
  cases hye
  exact ⟨isFinite_fromParts hy', hr⟩

theorem sound_exponentOverflow (zeroSig positiveExp : Bool) :
    Sound (fun x : Binary64 => x.isFinite = true) (exponentOverflow positive zeroSig positiveExp) := by
  intro r x rest hr h
  unfold exponentOverflow at h
  by_cases ho : (!zeroSig && positiveExp) = true
  · rw [if_pos ho] at h
    cases h
  · rw [if_neg ho] at h
    cases h
    exact ⟨Binary64.isFinite_signedZero _, isValid_skipDigits hr⟩

theorem sound_exponentDigits (positiveExp : Bool) (start : Int) :
    ∀ exp : Nat, Sound (fun x : Binary64 => x.isFinite = true)
      (exponentDigits positive sig positiveExp start exp) := by
  intro exp r x rest hr h
  induction r generalizing exp with
  | nil =>
    rw [exponentDigits] at h
    exact sound_finishFloat _ hr h
  | cons c s ih =>
    rw [exponentDigits] at h
    by_cases hc : isDigit c = true
    · have hs := isValid_of_cons (ascii_of_digit hc) hr
      rw [if_pos hc] at h
      dsimp only at h
      by_cases ho : Nat.pow 2 31 - 1 < exp * 10 + digitValue c
      · rw [if_pos ho, out_widen] at h
        exact sound_exponentOverflow _ _ hs h
      · rw [if_neg ho, out_widen] at h
        exact ih _ hs h
    · rw [if_neg hc] at h
      exact sound_finishFloat _ hr h

theorem sound_exponentBody (positiveExp : Bool) (start : Int) :
    Sound (fun x : Binary64 => x.isFinite = true) (exponentBody positive sig positiveExp start) := by
  intro r x rest hr h
  cases r with
  | nil => cases h
  | cons c s =>
    rw [exponentBody] at h
    by_cases hc : isDigit c = true
    · rw [if_pos hc, out_widen] at h
      exact sound_exponentDigits positiveExp start _ (isValid_of_cons (ascii_of_digit hc) hr) h
    · rw [if_neg hc] at h
      cases h

theorem sound_exponent (start : Int) :
    Sound (fun x : Binary64 => x.isFinite = true) (exponent positive sig start) := by
  intro r x rest hr h
  cases r with
  | nil => cases h
  | cons b s =>
    by_cases h43 : b = 43
    · subst h43
      rw [exponent, out_widen] at h
      exact sound_exponentBody true start (isValid_of_cons (by decide) hr) h
    by_cases h45 : b = 45
    · subst h45
      rw [exponent, out_widen] at h
      exact sound_exponentBody false start (isValid_of_cons (by decide) hr) h
    -- any other byte is the first of the exponent's digits
    have hb : ∀ x : UInt8, b ≠ x → ∀ t : Bytes, b :: s = x :: t → False :=
      fun x hx t ht => hx (List.cons.inj ht).1
    rw [exponent.eq_3 _ _ _ _ (hb 43 h43) (hb 45 h45)] at h
    exact sound_exponentBody true start hr h

theorem sound_afterDigits (e : Int) :
    Sound (fun x : Binary64 => x.isFinite = true) (afterDigits positive sig e) := by
  intro r x rest hr h
  cases r with
  | nil =>
    rw [afterDigits] at h
    exact sound_finishFloat _ hr h
  | cons c s =>
    rw [afterDigits] at h
    by_cases hc : isExponentMark c = true
    · rw [if_pos hc, out_widen] at h
      have hc' : c.toNat < 0x80 := by
        simp only [isExponentMark, Bool.or_eq_true, decide_eq_true_eq] at hc
        rcases hc with rfl | rfl <;> decide
      exact sound_exponent e (isValid_of_cons hc' hr) h
    · rw [if_neg hc] at h
      exact sound_finishFloat _ hr h

theorem sound_fractionOverflow (e : Int) :
    Sound (fun x : Binary64 => x.isFinite = true) (fractionOverflow positive sig e) := by
  intro r x rest hr h
  unfold fractionOverflow at h
  rw [out_widen] at h
  exact sound_afterDigits e (isValid_skipDigits hr) h

theorem sound_fractionDigits (before : Int) :
    ∀ (m count : Nat), Sound (fun x : Binary64 => x.isFinite = true)
      (fractionDigits positive m before count) := by
  intro m count r x rest hr h
  induction r generalizing m count with
  | nil =>
    rw [fractionDigits] at h
    by_cases hc : count = 0
    · rw [if_pos hc] at h
      cases h
    · rw [if_neg hc] at h
      exact sound_afterDigits _ hr h
  | cons c s ih =>
    rw [fractionDigits] at h
    by_cases hc : isDigit c = true
    · rw [if_pos hc] at h
      by_cases ho : Nat.pow 2 64 ≤ m * 10 + digitValue c
      · rw [if_pos ho] at h
        exact sound_fractionOverflow _ hr h
      · rw [if_neg ho, out_widen] at h
        exact ih _ _ (isValid_of_cons (ascii_of_digit hc) hr) h
    · rw [if_neg hc] at h
      by_cases h0 : count = 0
      · rw [if_pos h0] at h
        cases h
      · rw [if_neg h0] at h
        exact sound_afterDigits _ hr h

theorem sound_longWhole : ∀ exp : Nat,
    Sound (fun x : Binary64 => x.isFinite = true) (longWhole positive sig exp) := by
  intro exp r x rest hr h
  induction r generalizing exp with
  | nil =>
    rw [longWhole] at h
    exact sound_finishFloat _ hr h
  | cons c s ih =>
    rw [longWhole] at h
    by_cases hc : isDigit c = true
    · rw [if_pos hc, out_widen] at h
      exact ih _ (isValid_of_cons (ascii_of_digit hc) hr) h
    rw [if_neg hc] at h
    by_cases h46 : c = 46
    · rw [if_pos h46, out_widen] at h
      exact sound_fractionDigits _ _ _ (isValid_of_cons (by rw [h46]; decide) hr) h
    rw [if_neg h46] at h
    by_cases hce : isExponentMark c = true
    · rw [if_pos hce, out_widen] at h
      have hc' : c.toNat < 0x80 := by
        simp only [isExponentMark, Bool.or_eq_true, decide_eq_true_eq] at hce
        rcases hce with rfl | rfl <;> decide
      exact sound_exponent _ (isValid_of_cons hc' hr) h
    · rw [if_neg hce] at h
      exact sound_finishFloat _ hr h

end Chain

/-! ## Numbers -/

/-- A number read is finite when it is a float. -/
def FiniteNumber : Number → Prop
  | .float x => x.isFinite = true
  | _ => True

theorem finiteNumber_wholeNumber (positive : Bool) {sig : Nat} (h : sig < Nat.pow 2 64) :
    FiniteNumber (wholeNumber positive sig) := by
  unfold wholeNumber
  split
  · trivial
  split
  · show (Binary64.ofNat sig).negate.isFinite = true
    rw [Binary64.isFinite_negate]
    exact Binary64.isFinite_ofNat h
  · trivial

/-- A float read after the whole digits, as a number. -/
theorem sound_map_float {r : Bytes} {x : Step r Binary64} {n : Number} {rest : Bytes}
    (hx : ∀ {y : Binary64} {rest : Bytes}, x.out = .ok (y, rest) → y.isFinite = true ∧ isValid rest = true)
    (h : Step.out (r := r) (x.map fun p => (Number.float p.1, p.2)) = .ok (n, rest)) :
    FiniteNumber n ∧ isValid rest = true := by
  rw [out_map] at h
  obtain ⟨⟨y, r'⟩, hy, hye⟩ := map_eq_ok.1 h
  cases hye
  exact hx hy

theorem sound_afterWhole {positive : Bool} {sig : Nat} (hsig : sig < Nat.pow 2 64) :
    Sound FiniteNumber (afterWhole positive sig) := by
  intro r n rest hr h
  cases r with
  | nil =>
    rw [afterWhole] at h
    cases h
    exact ⟨finiteNumber_wholeNumber positive hsig, hr⟩
  | cons c s =>
    rw [afterWhole] at h
    by_cases h46 : c = 46
    · rw [if_pos h46] at h
      exact sound_map_float (fun hy => by
        rw [out_widen] at hy
        exact sound_fractionDigits _ _ _ (isValid_of_cons (by rw [h46]; decide) hr) hy) h
    rw [if_neg h46] at h
    by_cases hce : isExponentMark c = true
    · rw [if_pos hce] at h
      have hc' : c.toNat < 0x80 := by
        simp only [isExponentMark, Bool.or_eq_true, decide_eq_true_eq] at hce
        rcases hce with rfl | rfl <;> decide
      exact sound_map_float (fun hy => by
        rw [out_widen] at hy
        exact sound_exponent _ (isValid_of_cons hc' hr) hy) h
    · rw [if_neg hce] at h
      cases h
      exact ⟨finiteNumber_wholeNumber positive hsig, hr⟩

/-- Whole digits keep the significand below `2^64`; beyond it they are read as a float. -/
theorem sound_wholeDigits {positive : Bool} :
    ∀ sig : Nat, sig < Nat.pow 2 64 → Sound FiniteNumber (wholeDigits positive sig) := by
  intro sig hsig r n rest hr h
  induction r generalizing sig with
  | nil =>
    rw [wholeDigits] at h
    exact sound_afterWhole hsig hr h
  | cons c s ih =>
    rw [wholeDigits] at h
    by_cases hc : isDigit c = true
    · rw [if_pos hc] at h
      by_cases ho : Nat.pow 2 64 ≤ sig * 10 + digitValue c
      · rw [if_pos ho] at h
        exact sound_map_float (fun hy => sound_longWhole _ hr hy) h
      · rw [if_neg ho, out_widen] at h
        exact ih _ (by simp only [Nat.pow_eq] at ho ⊢; omega) (isValid_of_cons (ascii_of_digit hc) hr) h
    · rw [if_neg hc] at h
      exact sound_afterWhole hsig hr h

theorem sound_number {positive : Bool} : Sound FiniteNumber (number positive) := by
  intro r n rest hr h
  cases r with
  | nil => cases h
  | cons b p =>
    by_cases hb : b = 48
    · subst hb
      have hp := isValid_of_cons (by decide) hr
      -- a leading zero stands alone
      cases p with
      | nil =>
        rw [number, if_pos rfl, out_widen] at h
        exact sound_afterWhole (by decide) hp h
      | cons d p =>
        rw [number, if_pos rfl] at h
        by_cases hd : isDigit d = true
        · rw [if_pos hd] at h
          cases h
        · rw [if_neg hd, out_widen] at h
          exact sound_afterWhole (by decide) hp h
    · rw [number.eq_def] at h
      dsimp only at h
      rw [if_neg hb] at h
      by_cases hd : isDigit b = true
      · rw [if_pos hd, out_widen] at h
        have hdv : digitValue b < 2 ^ 64 := by
          simp only [isDigit, Bool.and_eq_true, decide_eq_true_eq, UInt8.le_iff_toNat_le] at hd
          unfold digitValue
          have : (57 : UInt8).toNat = 57 := rfl
          omega
        exact sound_wholeDigits _ hdv (isValid_of_cons (ascii_of_digit hd) hr) h
      · rw [if_neg hd] at h
        cases h

theorem representable_numberValue {k : Number} {r : Bytes} {v : Value} (hk : FiniteNumber k)
    (h : numberValue k r = .ok v) : Representable v := by
  cases k with
  | whole n =>
    unfold numberValue at h
    dsimp only at h
    split at h
    · cases h
      exact .int _
    · cases h
  | negative n =>
    cases h
    exact .int _
  | float x =>
    cases h
    exact .float hk

theorem sound_numberOut {positive : Bool} {r : Bytes} {v : Value} {rest : Bytes} (hr : isValid r = true)
    (h : numberOut (number positive r) = .ok (v, rest)) : Representable v ∧ isValid rest = true := by
  obtain ⟨⟨k, r'⟩, hk, h⟩ := bind_eq_ok.1 h
  obtain ⟨w, hw, hwe⟩ := map_eq_ok.1 h
  cases hwe
  obtain ⟨hfin, hvalid⟩ := sound_number hr hk
  exact ⟨representable_numberValue hfin hw, hvalid⟩

/-! ## Containers -/

section Containers

variable {item : (r : Bytes) → Step r Value}

/-- Items read by a sound reader after representable ones are representable, and leave valid
text. -/
theorem sound_arrayItems (hitem : Sound Representable item) (first : Bool) (acc : List Value)
    (r : Bytes) {xs : List Value} {rest : Bytes} (hacc : Representable (.list acc))
    (hr : isValid r = true) (h : (arrayItems item first acc r).out = .ok (xs, rest)) :
    Representable (.list xs) ∧ isValid rest = true := by
  obtain ⟨c, s, hsk, hcases⟩ := arrayItems_eq_ok h
  have hcs : isValid (c :: s) = true := hsk ▸ isValid_skipBlank hr
  have hlen : (c :: s).length ≤ r.length := hsk ▸ (skipBlank r).2
  rcases hcases with ⟨rfl, rfl, rfl⟩ | ⟨t, ht, v, s3, hv, hrest⟩
  · exact ⟨hacc.reverse, isValid_of_cons (by decide) hcs⟩
  · -- the item starts at the first byte, or after a comma and white space
    have ht' : isValid t = true ∧ (first = true ∧ t.length ≤ r.length ∨ first = false ∧ t.length < r.length) := by
      rcases ht with ⟨hf, rfl⟩ | ⟨hf, rfl, rfl⟩
      · exact ⟨hcs, .inl ⟨hf, hlen⟩⟩
      · refine ⟨isValid_skipBlank (isValid_of_cons (by decide) hcs), .inr ⟨hf, ?_⟩⟩
        have := (skipBlank s).2
        simp only [List.length_cons] at hlen
        omega
    obtain ⟨hvr, hs3⟩ := hitem ht'.1 hv
    have hlen3 := length_le_of_out hv
    have hdec : 2 * s3.length + (if false then 1 else 0) < 2 * r.length + (if first then 1 else 0) := by
      rcases ht'.2 with ⟨rfl, h1⟩ | ⟨rfl, h1⟩
      · rw [if_neg (by decide), if_pos rfl]
        omega
      · rw [if_neg (by decide)]
        omega
    exact sound_arrayItems hitem false (v :: acc) s3 (hacc.cons hvr) hs3 hrest
termination_by 2 * r.length + (if first then 1 else 0)

/-- Entries read by a sound reader into a representable dict give a representable dict, and
leave valid text. -/
theorem sound_objectEntries (hitem : Sound Representable item) (first : Bool)
    (acc : List (Bytes × Value)) (r : Bytes) {es : List (Bytes × Value)} {rest : Bytes}
    (hacc : Representable (.dict acc)) (hr : isValid r = true)
    (h : (objectEntries item first acc r).out = .ok (es, rest)) :
    Representable (.dict es) ∧ isValid rest = true := by
  obtain ⟨c, s, hsk, hcases⟩ := objectEntries_eq_ok h
  have hcs : isValid (c :: s) = true := hsk ▸ isValid_skipBlank hr
  have hlen : (c :: s).length ≤ r.length := hsk ▸ (skipBlank r).2
  rcases hcases with ⟨rfl, rfl, rfl⟩ | ⟨k, hk, key, s4, s5, hkey, hcolon, v, s6, hv, hrest⟩
  · exact ⟨hacc, isValid_of_cons (by decide) hcs⟩
  · -- the key starts after its quote: right after the brace, or after a comma and white space
    have hk' : isValid k = true ∧ k.length < r.length := by
      simp only [List.length_cons] at hlen
      rcases hk with ⟨-, rfl, rfl⟩ | ⟨-, rfl, hk⟩
      · exact ⟨isValid_of_cons (by decide) hcs, by omega⟩
      · have hq := isValid_skipBlank (isValid_of_cons (by decide) hcs)
        have := (skipBlank s).2
        rw [hk] at hq this
        simp only [List.length_cons] at this
        exact ⟨isValid_of_cons (by decide) hq, by omega⟩
    obtain ⟨hkv, hs4⟩ := stringBody_isValid (by simpa using hk'.1) hkey
    have h58 := isValid_skipBlank hs4
    rw [hcolon] at h58
    obtain ⟨hvr, hs6⟩ := hitem (isValid_of_cons (by decide) h58) hv
    have hdec : s6.length < r.length := by
      have h4 := length_le_of_out hkey
      have h5 : (58 :: s5).length ≤ s4.length := hcolon ▸ (skipBlank s4).2
      have h6 := length_le_of_out hv
      simp only [List.length_cons] at h5
      omega
    exact sound_objectEntries hitem false _ s6 (hacc.insertEntry hkv hvr) hs6 hrest
termination_by r.length

end Containers

/-! ## Values -/

/-- Reading valid UTF-8 text, the reader gives representable values, at any depth. -/
theorem sound_value (d : Nat) : Sound Representable (value d) := by
  intro r v rest hr h
  obtain ⟨c, s, hsk, hcases⟩ := value_eq_ok h
  have hcs : isValid (c :: s) = true := hsk ▸ isValid_skipBlank hr
  -- after a word's first letter come its other letters, all ASCII
  have hword : ∀ {w : Bytes}, (∀ b ∈ w, b.toNat < 0x80) → (word w s).map Subtype.val = .ok rest →
      isValid rest = true := fun hw h => by
    have hs := isValid_of_cons (c := c) ?_ hcs
    · rwa [eq_append_of_word h, isValid_ascii_append _ hw] at hs
    · rcases hcases with ⟨rfl, -⟩ | ⟨rfl, -⟩ | ⟨rfl, -⟩ | ⟨rfl, -⟩ | ⟨hc, -⟩ | ⟨rfl, -⟩ | ⟨rfl, -⟩ |
        ⟨rfl, -⟩
      all_goals first | decide | exact ascii_of_digit hc
  rcases hcases with ⟨rfl, rfl, hw⟩ | ⟨rfl, rfl, hw⟩ | ⟨rfl, rfl, hw⟩ | ⟨rfl, hn⟩ | ⟨hc, hn⟩ |
    ⟨rfl, b, hb, rfl⟩ | ⟨rfl, d', xs, rfl, hxs, rfl⟩ | ⟨rfl, d', es, rfl, hes, rfl⟩
  · exact ⟨.null, hword (by simp) hw⟩
  · exact ⟨.bool true, hword (by simp) hw⟩
  · exact ⟨.bool false, hword (by simp) hw⟩
  · exact sound_numberOut (isValid_of_cons (by decide) hcs) hn
  · exact sound_numberOut hcs hn
  · obtain ⟨hb1, hb2⟩ := stringBody_isValid (by simpa using isValid_of_cons (by decide) hcs) hb
    exact ⟨.str hb1, hb2⟩
  · exact sound_arrayItems (sound_value (d' + 1)) true [] s (.list fun _ h => absurd h List.not_mem_nil)
      (isValid_of_cons (by decide) hcs) hxs
  · exact sound_objectEntries (sound_value (d' + 1)) true [] s
      (.dict List.Pairwise.nil (fun _ h => absurd h List.not_mem_nil) (fun _ h => absurd h List.not_mem_nil))
      (isValid_of_cons (by decide) hcs) hes
termination_by d

/-- A value parsed from UTF-8 text, under any limit, is representable. -/
theorem representable_of_parse {limit : Nat} {text : Bytes} {v : Value} (ht : isValid text = true)
    (h : parse limit text = .ok v) : Representable v := by
  obtain ⟨rest, hv, -⟩ := value_of_readText (readText_of_parse h)
  exact (sound_value recursionLimit ht hv).1

end HandlerKit.Json
