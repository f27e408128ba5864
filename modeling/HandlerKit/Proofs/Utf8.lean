import HandlerKit.Text.Utf8
import HandlerKit.Value.Basic

/-!
# UTF-8: decoding inverts encoding

`Utf8.decode?` accepts exactly the encodings of texts, and gives the text back.

* `next_encodeChar` — the first piece of a character's encoding, whatever follows it, is that
  character, and spans the encoding.
* `encodeChar_of_next` — conversely, a scalar piece is the encoding of its character: the
  decoder's range checks leave no other spelling.
* `decode?_eq_some_iff` — hence `decode? bs = some cs` exactly when `bs = encode cs`.

Lean's own encoder agrees with `Utf8.encodeChar` (`utf8EncodeChar_eq`), so the bytes of a
`String` are the encoding of its characters (`ofString_eq_encode`). Bytes below `0x80` stand
only for themselves: every byte of a longer encoding is `0x80` or above
(`le_of_mem_encodeChar`), so a reader that stops at an ASCII byte stops between characters.
-/

namespace HandlerKit.Utf8

/-! ## Bytes and code points -/

theorem toNat_toUInt8 {n : Nat} (h : n < 256) : n.toUInt8.toNat = n := by
  simp [Nat.toUInt8, Nat.mod_eq_of_lt h]

theorem within_iff {lo hi b : UInt8} :
    within lo hi b = true ↔ lo.toNat ≤ b.toNat ∧ b.toNat ≤ hi.toNat := by
  simp [within, UInt8.le_iff_toNat_le]

theorem within_eq_false {lo hi b : UInt8} :
    within lo hi b = false ↔ ¬ (lo.toNat ≤ b.toNat ∧ b.toNat ≤ hi.toNat) := by
  rw [← within_iff]
  simp

/-- A scalar value lies below the surrogates, or above them and below `0x110000`. -/
def IsScalar (n : Nat) : Prop := n < 0xD800 ∨ (0xE000 ≤ n ∧ n < 0x110000)

theorem isScalar_toNat (c : Char) : IsScalar c.toNat := by
  have h := c.valid
  change c.val.toNat < 0xd800 ∨ (0xdfff < c.val.toNat ∧ c.val.toNat < 0x110000) at h
  change c.val.toNat < 0xD800 ∨ (0xE000 ≤ c.val.toNat ∧ c.val.toNat < 0x110000)
  omega

theorem toNat_ofNat {n : Nat} (h : IsScalar n) : (Char.ofNat n).toNat = n := by
  have hv : n.isValidChar := by
    unfold IsScalar at h
    simp only [Nat.isValidChar]
    omega
  rw [Char.ofNat, dif_pos hv]
  rfl

theorem scalarOf_toNat (c : Char) : scalarOf c.toNat = .scalar c := by
  simp [scalarOf]

theorem toNat_of_scalarOf {n : Nat} {c : Char} (h : scalarOf n = .scalar c) (hn : IsScalar n) :
    c.toNat = n := by
  rw [← Piece.scalar.inj h, toNat_ofNat hn]

theorem toUInt8_eq {n : Nat} {b : UInt8} (h : n = b.toNat) : n.toUInt8 = b := by
  have hb := b.toNat_lt
  apply UInt8.toNat_inj.1
  rw [toNat_toUInt8 (by omega), h]

/-- The bounds on the second byte of a three- or four-byte encoding, which depend on the
first. -/
theorem within_ite_iff {b x a₁ a₂ l h : UInt8} :
    within (if b = a₁ then l else 0x80) (if b = a₂ then h else 0xBF) x = true ↔
      (if b.toNat = a₁.toNat then l.toNat else 0x80) ≤ x.toNat ∧
        x.toNat ≤ (if b.toNat = a₂.toNat then h.toNat else 0xBF) := by
  simp only [UInt8.toNat_inj, within_iff]
  by_cases h1 : b = a₁ <;> by_cases h2 : b = a₂
  · simp only [if_pos h1, if_pos h2]
  · simp only [if_pos h1, if_neg h2]; rfl
  · simp only [if_neg h1, if_pos h2]; rfl
  · simp only [if_neg h1, if_neg h2]; rfl

/-! ## Encoding, then reading the first piece -/

section Encode

variable (c : Char) (r : List UInt8)

theorem next_encodeChar_one (h1 : c.toNat < 0x80) :
    ∃ b bs, encodeChar c = b :: bs ∧ next b (bs ++ r) = (.scalar c, bs.length) := by
  refine ⟨c.toNat.toUInt8, [], by simp [encodeChar, h1], ?_⟩
  have e0 : c.toNat.toUInt8.toNat = c.toNat := toNat_toUInt8 (by omega)
  have hb : c.toNat.toUInt8 < 0x80 := by
    rw [UInt8.lt_iff_toNat_lt, e0]
    simpa using h1
  simp only [next, if_pos hb, e0, scalarOf_toNat]
  rfl

theorem next_encodeChar_two (h1 : ¬ c.toNat < 0x80) (h2 : c.toNat < 0x800) :
    ∃ b bs, encodeChar c = b :: bs ∧ next b (bs ++ r) = (.scalar c, bs.length) := by
  refine ⟨(0xC0 + c.toNat / 64).toUInt8, [(0x80 + c.toNat % 64).toUInt8],
    by simp [encodeChar, h1, h2], ?_⟩
  have e0 : (0xC0 + c.toNat / 64).toUInt8.toNat = 0xC0 + c.toNat / 64 := toNat_toUInt8 (by omega)
  have e1 : (0x80 + c.toNat % 64).toUInt8.toNat = 0x80 + c.toNat % 64 := toNat_toUInt8 (by omega)
  have hb : ¬ (0xC0 + c.toNat / 64).toUInt8 < 0x80 := by
    rw [UInt8.lt_iff_toNat_lt, e0]; simp; omega
  have hw : within 0xC2 0xDF (0xC0 + c.toNat / 64).toUInt8 = true := by
    rw [within_iff, e0]; simp; omega
  have hw1 : within 0x80 0xBF (0x80 + c.toNat % 64).toUInt8 = true := by
    rw [within_iff, e1]; simp; omega
  have hn : (0xC0 + c.toNat / 64 - 0xC0) * 64 + (0x80 + c.toNat % 64 - 0x80) = c.toNat := by omega
  simp only [next, if_neg hb, hw, hw1, if_true, List.cons_append, e0, e1, hn, scalarOf_toNat]
  rfl

theorem next_encodeChar_three (h2 : ¬ c.toNat < 0x800) (h3 : c.toNat < 0x10000) :
    ∃ b bs, encodeChar c = b :: bs ∧ next b (bs ++ r) = (.scalar c, bs.length) := by
  have hv := isScalar_toNat c
  unfold IsScalar at hv
  refine ⟨(0xE0 + c.toNat / 4096).toUInt8, [(0x80 + c.toNat / 64 % 64).toUInt8,
    (0x80 + c.toNat % 64).toUInt8], by simp [encodeChar, h2, h3, show ¬ c.toNat < 0x80 by omega], ?_⟩
  have e0 : (0xE0 + c.toNat / 4096).toUInt8.toNat = 0xE0 + c.toNat / 4096 :=
    toNat_toUInt8 (by omega)
  have e1 : (0x80 + c.toNat / 64 % 64).toUInt8.toNat = 0x80 + c.toNat / 64 % 64 :=
    toNat_toUInt8 (by omega)
  have e2 : (0x80 + c.toNat % 64).toUInt8.toNat = 0x80 + c.toNat % 64 := toNat_toUInt8 (by omega)
  have hb : ¬ (0xE0 + c.toNat / 4096).toUInt8 < 0x80 := by
    rw [UInt8.lt_iff_toNat_lt, e0]; simp; omega
  have hn2 : within 0xC2 0xDF (0xE0 + c.toNat / 4096).toUInt8 = false := by
    rw [within_eq_false, e0]; simp; omega
  have hw3 : within 0xE0 0xEF (0xE0 + c.toNat / 4096).toUInt8 = true := by
    rw [within_iff, e0]; simp; omega
  -- the second byte is bounded tighter after 0xE0 (no overlong form) and 0xED (no surrogate)
  have hw1 : within (if (0xE0 + c.toNat / 4096).toUInt8 = 0xE0 then 0xA0 else 0x80)
      (if (0xE0 + c.toNat / 4096).toUInt8 = 0xED then 0x9F else 0xBF)
      (0x80 + c.toNat / 64 % 64).toUInt8 = true := by
    rw [within_ite_iff, e0, e1]
    simp only [UInt8.reduceToNat]
    constructor <;> split <;> omega
  have hw2 : within 0x80 0xBF (0x80 + c.toNat % 64).toUInt8 = true := by
    rw [within_iff, e2]; simp; omega
  have hn : (0xE0 + c.toNat / 4096 - 0xE0) * 4096 + (0x80 + c.toNat / 64 % 64 - 0x80) * 64
      + (0x80 + c.toNat % 64 - 0x80) = c.toNat := by omega
  simp only [next, if_neg hb, hn2, hw3, hw1, hw2, if_true, List.cons_append, e0, e1, e2, hn,
    scalarOf_toNat, Bool.false_eq_true, if_false]
  rfl

theorem next_encodeChar_four (h3 : ¬ c.toNat < 0x10000) :
    ∃ b bs, encodeChar c = b :: bs ∧ next b (bs ++ r) = (.scalar c, bs.length) := by
  have hv := isScalar_toNat c
  unfold IsScalar at hv
  refine ⟨(0xF0 + c.toNat / 262144).toUInt8, [(0x80 + c.toNat / 4096 % 64).toUInt8,
    (0x80 + c.toNat / 64 % 64).toUInt8, (0x80 + c.toNat % 64).toUInt8],
    by simp [encodeChar, h3, show ¬ c.toNat < 0x80 by omega, show ¬ c.toNat < 0x800 by omega], ?_⟩
  have e0 : (0xF0 + c.toNat / 262144).toUInt8.toNat = 0xF0 + c.toNat / 262144 :=
    toNat_toUInt8 (by omega)
  have e1 : (0x80 + c.toNat / 4096 % 64).toUInt8.toNat = 0x80 + c.toNat / 4096 % 64 :=
    toNat_toUInt8 (by omega)
  have e2 : (0x80 + c.toNat / 64 % 64).toUInt8.toNat = 0x80 + c.toNat / 64 % 64 :=
    toNat_toUInt8 (by omega)
  have e3 : (0x80 + c.toNat % 64).toUInt8.toNat = 0x80 + c.toNat % 64 := toNat_toUInt8 (by omega)
  have hb : ¬ (0xF0 + c.toNat / 262144).toUInt8 < 0x80 := by
    rw [UInt8.lt_iff_toNat_lt, e0]; simp; omega
  have hn2 : within 0xC2 0xDF (0xF0 + c.toNat / 262144).toUInt8 = false := by
    rw [within_eq_false, e0]; simp; omega
  have hn3 : within 0xE0 0xEF (0xF0 + c.toNat / 262144).toUInt8 = false := by
    rw [within_eq_false, e0]; simp; omega
  have hw4 : within 0xF0 0xF4 (0xF0 + c.toNat / 262144).toUInt8 = true := by
    rw [within_iff, e0]; simp; omega
  -- the second byte is bounded tighter after 0xF0 (no overlong form) and 0xF4 (at most U+10FFFF)
  have hw1 : within (if (0xF0 + c.toNat / 262144).toUInt8 = 0xF0 then 0x90 else 0x80)
      (if (0xF0 + c.toNat / 262144).toUInt8 = 0xF4 then 0x8F else 0xBF)
      (0x80 + c.toNat / 4096 % 64).toUInt8 = true := by
    rw [within_ite_iff, e0, e1]
    simp only [UInt8.reduceToNat]
    constructor <;> split <;> omega
  have hw2 : within 0x80 0xBF (0x80 + c.toNat / 64 % 64).toUInt8 = true := by
    rw [within_iff, e2]; simp; omega
  have hw3 : within 0x80 0xBF (0x80 + c.toNat % 64).toUInt8 = true := by
    rw [within_iff, e3]; simp; omega
  have hn : (0xF0 + c.toNat / 262144 - 0xF0) * 262144 + (0x80 + c.toNat / 4096 % 64 - 0x80) * 4096
      + (0x80 + c.toNat / 64 % 64 - 0x80) * 64 + (0x80 + c.toNat % 64 - 0x80) = c.toNat := by
    omega
  simp only [next, if_neg hb, hn2, hn3, hw4, hw1, hw2, hw3, if_true, List.cons_append, e0, e1, e2,
    e3, hn, scalarOf_toNat, Bool.false_eq_true, if_false]
  rfl

/-- The first piece of a character's encoding, whatever follows, is the character, spanning
its bytes. -/
theorem next_encodeChar :
    ∃ b bs, encodeChar c = b :: bs ∧ next b (bs ++ r) = (.scalar c, bs.length) := by
  by_cases h1 : c.toNat < 0x80
  · exact next_encodeChar_one c r h1
  by_cases h2 : c.toNat < 0x800
  · exact next_encodeChar_two c r h1 h2
  by_cases h3 : c.toNat < 0x10000
  · exact next_encodeChar_three c r h2 h3
  · exact next_encodeChar_four c r h3

end Encode

/-! ## Reading a piece, then encoding it -/

section Decode

variable {b c1 c2 c3 : UInt8} {c : Char}

theorem encodeChar_of_one (hb : b.toNat < 0x80) (hc : scalarOf b.toNat = .scalar c) :
    encodeChar c = [b] := by
  have hn := toNat_of_scalarOf hc (by unfold IsScalar; omega)
  simp only [encodeChar, hn, if_pos hb, toUInt8_eq rfl]

theorem encodeChar_of_two (hb : 0xC2 ≤ b.toNat ∧ b.toNat ≤ 0xDF)
    (h1 : 0x80 ≤ c1.toNat ∧ c1.toNat ≤ 0xBF)
    (hc : scalarOf ((b.toNat - 0xC0) * 64 + (c1.toNat - 0x80)) = .scalar c) :
    encodeChar c = [b, c1] := by
  generalize hv : (b.toNat - 0xC0) * 64 + (c1.toNat - 0x80) = n at hc
  have hn := toNat_of_scalarOf hc (by unfold IsScalar; omega)
  simp only [encodeChar, hn, if_neg (show ¬ n < 0x80 by omega), if_pos (show n < 0x800 by omega)]
  rw [toUInt8_eq (show 0xC0 + n / 64 = b.toNat by omega),
    toUInt8_eq (show 0x80 + n % 64 = c1.toNat by omega)]

theorem encodeChar_of_three (hb : 0xE0 ≤ b.toNat ∧ b.toNat ≤ 0xEF)
    (h1 : (if b.toNat = 0xE0 then 0xA0 else 0x80) ≤ c1.toNat ∧
      c1.toNat ≤ (if b.toNat = 0xED then 0x9F else 0xBF))
    (h2 : 0x80 ≤ c2.toNat ∧ c2.toNat ≤ 0xBF)
    (hc : scalarOf ((b.toNat - 0xE0) * 4096 + (c1.toNat - 0x80) * 64 + (c2.toNat - 0x80)) =
      .scalar c) :
    encodeChar c = [b, c1, c2] := by
  have hc1 : 0x80 ≤ c1.toNat ∧ c1.toNat ≤ 0xBF := by
    obtain ⟨hlo, hhi⟩ := h1
    constructor
    · split at hlo <;> omega
    · split at hhi <;> omega
  generalize hv : (b.toNat - 0xE0) * 4096 + (c1.toNat - 0x80) * 64 + (c2.toNat - 0x80) = n at hc
  -- the tighter bounds after 0xE0 and 0xED rule out overlong forms and surrogates
  have hlo : 0x800 ≤ n := by
    by_cases hE0 : b.toNat = 0xE0 <;> simp only [hE0, if_true, if_false] at h1 <;> omega
  have hs : IsScalar n := by
    unfold IsScalar
    by_cases hED : b.toNat = 0xED <;> simp only [hED, if_true, if_false] at h1 <;> omega
  have hn := toNat_of_scalarOf hc hs
  simp only [encodeChar, hn, if_neg (show ¬ n < 0x80 by omega),
    if_neg (show ¬ n < 0x800 by omega), if_pos (show n < 0x10000 by omega)]
  rw [toUInt8_eq (show 0xE0 + n / 4096 = b.toNat by omega),
    toUInt8_eq (show 0x80 + n / 64 % 64 = c1.toNat by omega),
    toUInt8_eq (show 0x80 + n % 64 = c2.toNat by omega)]

theorem encodeChar_of_four (hb : 0xF0 ≤ b.toNat ∧ b.toNat ≤ 0xF4)
    (h1 : (if b.toNat = 0xF0 then 0x90 else 0x80) ≤ c1.toNat ∧
      c1.toNat ≤ (if b.toNat = 0xF4 then 0x8F else 0xBF))
    (h2 : 0x80 ≤ c2.toNat ∧ c2.toNat ≤ 0xBF) (h3 : 0x80 ≤ c3.toNat ∧ c3.toNat ≤ 0xBF)
    (hc : scalarOf ((b.toNat - 0xF0) * 262144 + (c1.toNat - 0x80) * 4096
      + (c2.toNat - 0x80) * 64 + (c3.toNat - 0x80)) = .scalar c) :
    encodeChar c = [b, c1, c2, c3] := by
  have hc1 : 0x80 ≤ c1.toNat ∧ c1.toNat ≤ 0xBF := by
    obtain ⟨hlo, hhi⟩ := h1
    constructor
    · split at hlo <;> omega
    · split at hhi <;> omega
  generalize hv : (b.toNat - 0xF0) * 262144 + (c1.toNat - 0x80) * 4096
    + (c2.toNat - 0x80) * 64 + (c3.toNat - 0x80) = n at hc
  -- the tighter bounds after 0xF0 and 0xF4 keep the code point in 0x10000 … 0x10FFFF
  have hlo : 0x10000 ≤ n := by
    by_cases hF0 : b.toNat = 0xF0 <;> simp only [hF0, if_true, if_false] at h1 <;> omega
  have hs : IsScalar n := by
    unfold IsScalar
    by_cases hF4 : b.toNat = 0xF4 <;> simp only [hF4, if_true, if_false] at h1 <;> omega
  have hn := toNat_of_scalarOf hc hs
  simp only [encodeChar, hn, if_neg (show ¬ n < 0x80 by omega),
    if_neg (show ¬ n < 0x800 by omega), if_neg (show ¬ n < 0x10000 by omega)]
  rw [toUInt8_eq (show 0xF0 + n / 262144 = b.toNat by omega),
    toUInt8_eq (show 0x80 + n / 4096 % 64 = c1.toNat by omega),
    toUInt8_eq (show 0x80 + n / 64 % 64 = c2.toNat by omega),
    toUInt8_eq (show 0x80 + n % 64 = c3.toNat by omega)]

/-- A scalar piece is the encoding of its character. -/
theorem encodeChar_of_next {b : UInt8} {r : List UInt8} {c : Char} {k : Nat}
    (h : next b r = (.scalar c, k)) : k ≤ r.length ∧ b :: r.take k = encodeChar c := by
  unfold next at h
  split at h
  · rename_i hlt
    obtain ⟨hc, rfl⟩ := Prod.mk.inj h
    rw [UInt8.lt_iff_toNat_lt] at hlt
    exact ⟨Nat.zero_le _, (encodeChar_of_one hlt hc).symm⟩
  split at h
  · rename_i hw
    split at h
    · rename_i c1 tail
      split at h
      · rename_i hw1
        obtain ⟨hc, rfl⟩ := Prod.mk.inj h
        rw [within_iff] at hw hw1
        exact ⟨by simp, (encodeChar_of_two hw hw1 hc).symm⟩
      · cases h
    · cases h
  split at h
  · rename_i hw
    dsimp only at h
    generalize hlo : (if b = 0xE0 then (0xA0 : UInt8) else 0x80) = lo at h
    generalize hhi : (if b = 0xED then (0x9F : UInt8) else 0xBF) = hi at h
    split at h
    · rename_i c1 r1
      split at h
      · rename_i hw1
        split at h
        · rename_i c2 tail
          split at h
          · rename_i hw2
            obtain ⟨hc, rfl⟩ := Prod.mk.inj h
            rw [within_iff] at hw hw2
            rw [← hlo, ← hhi, within_ite_iff] at hw1
            simp only [UInt8.reduceToNat] at hw hw1 hw2
            exact ⟨by simp, (encodeChar_of_three hw hw1 hw2 hc).symm⟩
          · cases h
        · cases h
      · cases h
    · cases h
  split at h
  · rename_i hw
    dsimp only at h
    generalize hlo : (if b = 0xF0 then (0x90 : UInt8) else 0x80) = lo at h
    generalize hhi : (if b = 0xF4 then (0x8F : UInt8) else 0xBF) = hi at h
    split at h
    · rename_i c1 r1
      split at h
      · rename_i hw1
        split at h
        · rename_i c2 r2
          split at h
          · rename_i hw2
            split at h
            · rename_i c3 tail
              split at h
              · rename_i hw3
                obtain ⟨hc, rfl⟩ := Prod.mk.inj h
                rw [within_iff] at hw hw2 hw3
                rw [← hlo, ← hhi, within_ite_iff] at hw1
                simp only [UInt8.reduceToNat] at hw hw1 hw2 hw3
                exact ⟨by simp, (encodeChar_of_four hw hw1 hw2 hw3 hc).symm⟩
              · cases h
            · cases h
          · cases h
        · cases h
      · cases h
    · cases h
  · cases h

end Decode

/-! ## Texts -/

theorem pieces_nil : pieces [] = [] := by
  rw [pieces]

/-- An encoded text splits into one scalar piece per character, whatever follows it. -/
theorem pieces_encode_append (cs : List Char) (r : List UInt8) :
    pieces (encode cs ++ r) = cs.map Piece.scalar ++ pieces r := by
  induction cs with
  | nil => rfl
  | cons c cs ih =>
    obtain ⟨b, bs, he, hn⟩ := next_encodeChar c (encode cs ++ r)
    have hbytes : encode (c :: cs) ++ r = b :: (bs ++ (encode cs ++ r)) := by
      simp [encode, he]
    rw [hbytes, pieces, hn, List.drop_left, ih]
    rfl

theorem decode?_encode (cs : List Char) : decode? (encode cs) = some cs := by
  rw [decode?, ← List.append_nil (encode cs), pieces_encode_append, pieces_nil, List.append_nil]
  induction cs with
  | nil => rfl
  | cons c cs ih =>
    rw [List.map_cons, List.mapM_cons, ih]
    rfl

theorem eq_encode_of_decode? {bs : List UInt8} {cs : List Char} (h : decode? bs = some cs) :
    bs = encode cs := by
  unfold decode? at h
  fun_induction pieces bs generalizing cs with
  | case1 =>
    simp at h
    subst h
    rfl
  | case2 b rest ih =>
    -- the first piece is a character, and the pieces after it decode to the rest of the text
    generalize hnext : next b rest = p at h ih
    obtain ⟨piece, k⟩ := p
    cases piece with
    | illFormed => simp at h
    | scalar c =>
      rw [List.mapM_cons] at h
      simp only [Option.pure_def, Option.bind_eq_bind, Option.bind_some] at h
      obtain ⟨cs', hcs', hcs⟩ := Option.bind_eq_some_iff.1 h
      cases hcs
      have htail : rest.drop k = encode cs' := ih hcs'
      obtain ⟨-, hhead⟩ := encodeChar_of_next hnext
      rw [encode, List.flatMap_cons, ← hhead, ← encode, ← htail, List.cons_append,
        List.take_append_drop]

theorem decode?_eq_some_iff {bs : List UInt8} {cs : List Char} :
    decode? bs = some cs ↔ bs = encode cs :=
  ⟨eq_encode_of_decode?, fun h => h ▸ decode?_encode cs⟩

/-! ## ASCII bytes stand for themselves -/

theorem encodeChar_of_lt {c : Char} (h : c.toNat < 0x80) : encodeChar c = [c.toNat.toUInt8] := by
  simp [encodeChar, h]

/-- Every byte of a longer encoding is `0x80` or above. -/
theorem le_of_mem_encodeChar {c : Char} (h : 0x80 ≤ c.toNat) {b : UInt8} (hb : b ∈ encodeChar c) :
    0x80 ≤ b.toNat := by
  have hv := isScalar_toNat c
  unfold IsScalar at hv
  simp only [encodeChar, if_neg (show ¬ c.toNat < 0x80 by omega)] at hb
  split at hb
  · simp only [List.mem_cons, List.not_mem_nil, or_false] at hb
    rcases hb with rfl | rfl <;> rw [toNat_toUInt8 (by omega)] <;> omega
  split at hb
  · simp only [List.mem_cons, List.not_mem_nil, or_false] at hb
    rcases hb with rfl | rfl | rfl <;> rw [toNat_toUInt8 (by omega)] <;> omega
  · simp only [List.mem_cons, List.not_mem_nil, or_false] at hb
    rcases hb with rfl | rfl | rfl | rfl <;> rw [toNat_toUInt8 (by omega)] <;> omega

/-- After its first byte, an encoding has continuation bytes only. -/
theorem le_of_mem_tail_encodeChar {c : Char} {b : UInt8} (hb : b ∈ (encodeChar c).tail) :
    0x80 ≤ b.toNat := by
  by_cases h : c.toNat < 0x80
  · rw [encodeChar_of_lt h] at hb
    cases hb
  · exact le_of_mem_encodeChar (by omega) (List.mem_of_mem_tail hb)

theorem encode_append (cs ds : List Char) : encode (cs ++ ds) = encode cs ++ encode ds :=
  List.flatMap_append

theorem isValid_iff {bs : List UInt8} : isValid bs = true ↔ ∃ cs, bs = encode cs := by
  rw [isValid, Option.isSome_iff_exists]
  simp only [decode?_eq_some_iff]

theorem isValid_encode (cs : List Char) : isValid (encode cs) = true :=
  isValid_iff.2 ⟨cs, rfl⟩

theorem isValid_append {a b : List UInt8} (ha : isValid a = true) (hb : isValid b = true) :
    isValid (a ++ b) = true := by
  obtain ⟨cs, rfl⟩ := isValid_iff.1 ha
  obtain ⟨ds, rfl⟩ := isValid_iff.1 hb
  rw [← encode_append]
  exact isValid_encode _

/-- An encoded text splits before any ASCII byte in it, between two characters. -/
theorem encode_eq_append_cons {c : UInt8} {b : List UInt8} (hc : c.toNat < 0x80) :
    ∀ {cs : List Char} {a : List UInt8}, encode cs = a ++ c :: b →
      ∃ cs₁ cs₂, encode cs₁ = a ∧ encode cs₂ = c :: b
  | [], a, h => by cases a <;> cases h
  | ch :: cs, a, h => by
    cases a with
    | nil => exact ⟨[], ch :: cs, rfl, h⟩
    | cons a₀ a =>
      rw [encode, List.flatMap_cons, ← encode] at h
      rcases List.append_eq_append_iff.1 h with ⟨a', ha, hrest⟩ | ⟨c', hch, hcb⟩
      · -- the first character ends inside `a`
        obtain ⟨cs₁, cs₂, h₁, h₂⟩ := encode_eq_append_cons hc hrest
        refine ⟨ch :: cs₁, cs₂, ?_, h₂⟩
        rw [encode, List.flatMap_cons, ← encode, h₁, ha]
      · cases c' with
        | nil =>
          rw [List.append_nil] at hch
          exact ⟨[ch], cs, by rw [encode, List.flatMap_cons, List.flatMap_nil, List.append_nil, hch],
            by rw [List.nil_append] at hcb; exact hcb.symm⟩
        | cons x c' =>
          -- otherwise `c` would be a continuation byte of the first character
          obtain ⟨rfl, -⟩ := List.cons.inj hcb
          have hx : c ∈ (encodeChar ch).tail := by
            rw [hch, List.cons_append, List.tail_cons]
            exact List.mem_append_right a List.mem_cons_self
          have := le_of_mem_tail_encodeChar hx
          omega

theorem isValid_append_cons {a b : List UInt8} {c : UInt8} (h : isValid (a ++ c :: b) = true)
    (hc : c.toNat < 0x80) : isValid a = true ∧ isValid (c :: b) = true := by
  obtain ⟨cs, hcs⟩ := isValid_iff.1 h
  obtain ⟨cs₁, cs₂, h₁, h₂⟩ := encode_eq_append_cons hc hcs.symm
  exact ⟨isValid_iff.2 ⟨cs₁, h₁.symm⟩, isValid_iff.2 ⟨cs₂, h₂.symm⟩⟩

/-- An ASCII byte in front changes nothing about validity. -/
theorem isValid_cons {c : UInt8} (b : List UInt8) (hc : c.toNat < 0x80) :
    isValid (c :: b) = isValid b := by
  have hch : encodeChar (Char.ofNat c.toNat) = [c] := by
    have hs : IsScalar c.toNat := .inl (by omega)
    rw [encodeChar_of_lt (by rw [toNat_ofNat hs]; exact hc), toUInt8_eq (toNat_ofNat hs)]
  apply Bool.eq_iff_iff.2
  constructor
  · intro h
    obtain ⟨cs, hcs⟩ := isValid_iff.1 h
    cases cs with
    | nil => cases hcs
    | cons ch cs =>
      rw [encode, List.flatMap_cons, ← encode] at hcs
      by_cases hlt : ch.toNat < 0x80
      · rw [encodeChar_of_lt hlt, List.singleton_append] at hcs
        exact isValid_iff.2 ⟨cs, (List.cons.inj hcs).2⟩
      · -- a longer encoding starts with a byte of `0x80` or above
        obtain ⟨x, xs, he, -⟩ := next_encodeChar ch []
        rw [he, List.cons_append] at hcs
        have hmem : c ∈ encodeChar ch := by
          rw [he, (List.cons.inj hcs).1]
          exact List.mem_cons_self
        have := le_of_mem_encodeChar (by omega) hmem
        omega
  · intro h
    obtain ⟨cs, rfl⟩ := isValid_iff.1 h
    have hbytes : c :: encode cs = encode (Char.ofNat c.toNat :: cs) := by
      rw [encode, encode, List.flatMap_cons, hch]
      rfl
    rw [hbytes]
    exact isValid_encode _

/-! ## The bytes of a `String` -/

theorem byteArray_toList_loop (bs : ByteArray) (i : Nat) (r : List UInt8) (h : i ≤ bs.size) :
    ByteArray.toList.loop bs i r = r.reverse ++ bs.data.toList.drop i := by
  fun_induction ByteArray.toList.loop bs i r with
  | case1 i r hi ih =>
    have hl : i < bs.data.toList.length := by simpa using hi
    rw [ih (by omega), List.drop_eq_getElem_cons hl]
    simp [ByteArray.get!, getElem!_pos bs.data i (by simpa using hi)]
  | case2 i r hi =>
    have : bs.data.toList.drop i = [] := by simp; omega
    simp [this]

theorem byteArray_toList (bs : ByteArray) : bs.toList = bs.data.toList := by
  rw [ByteArray.toList, byteArray_toList_loop bs 0 [] (Nat.zero_le _)]
  simp

theorem utf8EncodeChar_eq (c : Char) : String.utf8EncodeChar c = encodeChar c := by
  have hv := isScalar_toNat c
  unfold IsScalar at hv
  unfold String.utf8EncodeChar encodeChar
  simp only [Char.toNat_val]
  by_cases h1 : c.toNat < 0x80
  · rw [if_pos (by omega), if_pos h1]
  rw [if_neg (by omega), if_neg h1]
  by_cases h2 : c.toNat < 0x800
  · rw [if_pos (by omega), if_pos h2, show c.toNat / 64 % 32 + 0xc0 = 0xC0 + c.toNat / 64 by omega,
      Nat.add_comm (c.toNat % 64)]
  rw [if_neg (by omega), if_neg h2]
  by_cases h3 : c.toNat < 0x10000
  · rw [if_pos (by omega), if_pos h3,
      show c.toNat / 4096 % 16 + 0xe0 = 0xE0 + c.toNat / 4096 by omega,
      Nat.add_comm (c.toNat / 64 % 64), Nat.add_comm (c.toNat % 64)]
  rw [if_neg (by omega), if_neg h3,
    show c.toNat / 262144 % 8 + 0xf0 = 0xF0 + c.toNat / 262144 by omega,
    Nat.add_comm (c.toNat / 4096 % 64), Nat.add_comm (c.toNat / 64 % 64),
    Nat.add_comm (c.toNat % 64)]

/-- The bytes of a text are the encoding of its characters. -/
theorem ofString_eq_encode (s : String) : Bytes.ofString s = encode s.toList := by
  rw [Bytes.ofString, String.toUTF8_eq_toByteArray, ← String.ofList_toList (s := s),
    String.toByteArray_ofList, byteArray_toList, List.utf8Encode, List.toList_data_toByteArray,
    String.toList_ofList, encode, funext utf8EncodeChar_eq]

/-- The bytes of a text are UTF-8. -/
theorem isValid_ofString (s : String) : isValid (Bytes.ofString s) = true := by
  rw [ofString_eq_encode]
  exact isValid_encode _

theorem ofString_empty : Bytes.ofString "" = [] := by
  rw [ofString_eq_encode]
  rfl

theorem ofString_append (a b : String) :
    Bytes.ofString (a ++ b) = Bytes.ofString a ++ Bytes.ofString b := by
  rw [ofString_eq_encode, ofString_eq_encode, ofString_eq_encode, String.toList_append,
    encode_append]

/-- The bytes of an ASCII text are its characters' codes. -/
theorem ofString_ofList_ascii {cs : List Char} (h : ∀ c ∈ cs, c.toNat < 128) :
    Bytes.ofString (String.ofList cs) = cs.map fun c => c.toNat.toUInt8 := by
  rw [ofString_eq_encode, String.toList_ofList]
  induction cs with
  | nil => rfl
  | cons c cs ih =>
    rw [encode, List.flatMap_cons, ← encode, ih fun d hd => h d (List.mem_cons_of_mem c hd)]
    simp [encodeChar, h c List.mem_cons_self]

end HandlerKit.Utf8
