import HandlerKit.Proofs.Json.Reading
import HandlerKit.Proofs.Utf8

/-!
# Strings in JSON text

The writer puts a text between quotes and escapes the quote, the backslash and every control
character; the reader undoes the escapes and copies every other byte. The two meet one
character at a time.

**The reader's steps** (`stringBody_quote`, `stringBody_plain`, `stringBody_escape`,
`stringBody_unicode`). A quote ends the string, a plain byte is copied, a two-byte escape
gives its character, and `\u` gives the code point of four hexadecimal digits.

**Writing, then reading** (`stringBody_escapeChar`, `value_quoteText`). Each written character
reads back as its UTF-8 bytes: a quote, a backslash and `\b \f \n \r \t` through their two-byte
escapes, another control character through `\u00xx`, and anything else, whose bytes are all
plain, as itself. So a quoted text reads back as the bytes of the text.

**Reading keeps UTF-8** (`stringBody_isValid`). The reader copies runs of bytes that lie
between ASCII bytes of a UTF-8 text and adds the encodings of escaped characters, so from a
UTF-8 text it reads UTF-8 strings and leaves UTF-8 bytes after the closing quote.
-/

namespace HandlerKit.Json

open Utf8 (encode encodeChar isValid)

/-! ## The reader's steps -/

section Body

variable {acc s : Bytes}

theorem stringBody_quote : (stringBody acc (34 :: s)).out = .ok (acc.reverse, s) := by
  rw [stringBody.eq_def]
  dsimp only
  rw [if_pos rfl]
  rfl

/-- A byte other than a quote, a backslash or a control character is copied. -/
theorem stringBody_plain {c : UInt8} (h34 : c ≠ 34) (h92 : c ≠ 92) (h32 : ¬ c < 32) :
    (stringBody acc (c :: s)).out = (stringBody (c :: acc) s).out := by
  rw [stringBody.eq_def]
  dsimp only
  rw [if_neg h34, if_neg h92, if_neg h32, out_widen]

/-- Plain bytes are copied one after another. -/
theorem stringBody_plain_append {bs : Bytes} (h : ∀ b ∈ bs, b ≠ 34 ∧ b ≠ 92 ∧ ¬ b < 32) :
    (stringBody acc (bs ++ s)).out = (stringBody (bs.reverse ++ acc) s).out := by
  induction bs generalizing acc with
  | nil => rfl
  | cons b bs ih =>
    obtain ⟨h34, h92, h32⟩ := h b List.mem_cons_self
    rw [List.cons_append, stringBody_plain h34 h92 h32,
      ih fun x hx => h x (List.mem_cons_of_mem b hx), List.reverse_cons, List.append_assoc]
    rfl

/-- A two-byte escape: the byte after the backslash and the byte it stands for. -/
def IsShortEscape (e b : UInt8) : Prop :=
  (e = 34 ∧ b = 34) ∨ (e = 92 ∧ b = 92) ∨ (e = 47 ∧ b = 47) ∨ (e = 98 ∧ b = 8) ∨
    (e = 102 ∧ b = 12) ∨ (e = 110 ∧ b = 10) ∨ (e = 114 ∧ b = 13) ∨ (e = 116 ∧ b = 9)

theorem IsShortEscape.ascii {e b : UInt8} (h : IsShortEscape e b) :
    e.toNat < 0x80 ∧ b.toNat < 0x80 := by
  rcases h with ⟨rfl, rfl⟩ | ⟨rfl, rfl⟩ | ⟨rfl, rfl⟩ | ⟨rfl, rfl⟩ | ⟨rfl, rfl⟩ | ⟨rfl, rfl⟩ |
    ⟨rfl, rfl⟩ | ⟨rfl, rfl⟩ <;> decide

/-- Every pair the reader's table of two-byte escapes gives is a short escape. -/
theorem IsShortEscape.of_table {e c : UInt8}
    (h : (if e = 34 then some 34 else if e = 92 then some 92 else if e = 47 then some 47
      else if e = 98 then some 8 else if e = 102 then some 12 else if e = 110 then some 10
      else if e = 114 then some 13 else if e = 116 then some 9 else none) = some c) :
    IsShortEscape e c := by
  unfold IsShortEscape
  repeat' split at h
  all_goals cases h <;> subst_vars <;> decide

theorem stringBody_escape {e b : UInt8} (h : IsShortEscape e b) :
    (stringBody acc (92 :: e :: s)).out = (stringBody (b :: acc) s).out := by
  rw [stringBody.eq_def]
  dsimp only
  rw [if_neg (by decide), if_pos rfl]
  rcases h with ⟨rfl, rfl⟩ | ⟨rfl, rfl⟩ | ⟨rfl, rfl⟩ | ⟨rfl, rfl⟩ | ⟨rfl, rfl⟩ | ⟨rfl, rfl⟩ |
    ⟨rfl, rfl⟩ | ⟨rfl, rfl⟩ <;> simp

theorem stringBody_unicode_error {e : Stop} (h : unicodeEscape s = .error e) :
    (stringBody acc (92 :: 117 :: s)).out = .error e := by
  rw [stringBody.eq_def]
  dsimp only
  rw [if_neg (by decide), if_pos rfl, h]
  rfl

theorem stringBody_unicode {n : Nat} {s' : Bytes} (h : (unicodeEscape s).out = .ok (n, s')) :
    (stringBody acc (92 :: 117 :: s)).out = (stringBody (pushCodePoint n acc) s').out := by
  rw [stringBody.eq_def]
  dsimp only
  rw [if_neg (by decide), if_pos rfl]
  obtain ⟨⟨n', ⟨s'', h''⟩⟩, hu, hue⟩ := map_eq_ok.1 h
  obtain ⟨rfl, rfl⟩ := Prod.mk.inj hue
  rw [hu]
  exact out_widen _ _

end Body

/-! ## Writing, then reading -/

/-- The value of one hexadecimal digit as the writer spells it. -/
theorem hexValue_digit {k : Nat} (hk : k < 16) :
    hexValue (if k < 10 then 48 + k else 87 + k).toUInt8 = some k := by
  unfold hexValue
  by_cases h10 : k < 10
  · have e : (48 + k).toUInt8.toNat = 48 + k := Utf8.toNat_toUInt8 (by omega)
    rw [if_pos h10, if_pos (by simp only [UInt8.le_iff_toNat_le, e]; simp; omega), e]
    congr 1
    omega
  · have e : (87 + k).toUInt8.toNat = 87 + k := Utf8.toNat_toUInt8 (by omega)
    rw [if_neg h10, if_neg (by simp only [UInt8.le_iff_toNat_le, e]; simp; omega),
      if_pos (by simp only [UInt8.le_iff_toNat_le, e]; simp; omega), e]
    congr 1
    omega

theorem encodeChar_hexDigit {k : Nat} (hk : k < 16) :
    encodeChar (if k < 10 then Char.ofNat (48 + k) else Char.ofNat (87 + k)) =
      [(if k < 10 then 48 + k else 87 + k).toUInt8] := by
  have hs : ∀ n, n < 0xD800 → Utf8.IsScalar n := fun n h => .inl h
  by_cases h10 : k < 10
  · rw [if_pos h10, if_pos h10, Utf8.encodeChar_of_lt (by rw [Utf8.toNat_ofNat (hs _ (by omega))]; omega),
      Utf8.toNat_ofNat (hs _ (by omega))]
  · rw [if_neg h10, if_neg h10, Utf8.encodeChar_of_lt (by rw [Utf8.toNat_ofNat (hs _ (by omega))]; omega),
      Utf8.toNat_ofNat (hs _ (by omega))]

/-- The escape `\u00xx` of a control character gives its code point. -/
theorem unicodeEscape_control {n : Nat} (hn : n < 0x20) {b₁ b₂ : UInt8}
    (h₁ : hexValue b₁ = some (n / 16)) (h₂ : hexValue b₂ = some (n % 16)) (s : Bytes) :
    (unicodeEscape (48 :: 48 :: b₁ :: b₂ :: s)).out = .ok (n, s) := by
  have hq : ((0 * 16 + 0) * 16 + n / 16) * 16 + n % 16 = n := by omega
  unfold unicodeEscape
  rw [hexQuad, show hexValue 48 = some 0 from rfl, h₁, h₂]
  dsimp only
  rw [hq, if_neg (show ¬(0xDC00 ≤ n ∧ n ≤ 0xDFFF) by omega), if_pos (.inl (show n < 0xD800 by omega))]
  rfl

theorem char_eq_ofNat {c : Char} {n : Nat} (h : c.toNat = n) : c = Char.ofNat n := by
  rw [← h, Char.ofNat_toNat]

/-- A character is written so that it reads back as its UTF-8 bytes. -/
theorem stringBody_escapeChar (c : Char) (acc s : Bytes) :
    (stringBody acc (encode (escapeChar c) ++ s)).out =
      (stringBody ((encodeChar c).reverse ++ acc) s).out := by
  unfold escapeChar
  by_cases h1 : c = '"'
  · subst h1
    exact stringBody_escape (.inl ⟨rfl, rfl⟩)
  rw [if_neg h1]
  by_cases h2 : c = '\\'
  · subst h2
    exact stringBody_escape (.inr (.inl ⟨rfl, rfl⟩))
  rw [if_neg h2]
  by_cases h3 : c = '\x08'
  · subst h3
    exact stringBody_escape (.inr (.inr (.inr (.inl ⟨rfl, rfl⟩))))
  rw [if_neg h3]
  by_cases h4 : c = '\x0c'
  · subst h4
    exact stringBody_escape (.inr (.inr (.inr (.inr (.inl ⟨rfl, rfl⟩)))))
  rw [if_neg h4]
  by_cases h5 : c = '\n'
  · subst h5
    exact stringBody_escape (.inr (.inr (.inr (.inr (.inr (.inl ⟨rfl, rfl⟩))))))
  rw [if_neg h5]
  by_cases h6 : c = '\r'
  · subst h6
    exact stringBody_escape (.inr (.inr (.inr (.inr (.inr (.inr (.inl ⟨rfl, rfl⟩)))))))
  rw [if_neg h6]
  by_cases h7 : c = '\t'
  · subst h7
    exact stringBody_escape (.inr (.inr (.inr (.inr (.inr (.inr (.inr ⟨rfl, rfl⟩)))))))
  rw [if_neg h7]
  have hv := Utf8.isScalar_toNat c
  by_cases h8 : c.toNat < 0x20
  · -- another control character: `\u00` and two hexadecimal digits
    rw [if_pos h8]
    dsimp only
    have henc : encode ['\\', 'u', '0', '0',
        (if c.toNat / 16 < 10 then Char.ofNat (48 + c.toNat / 16) else Char.ofNat (87 + c.toNat / 16)),
        (if c.toNat % 16 < 10 then Char.ofNat (48 + c.toNat % 16) else Char.ofNat (87 + c.toNat % 16))] =
        92 :: 117 :: 48 :: 48 :: (if c.toNat / 16 < 10 then 48 + c.toNat / 16 else 87 + c.toNat / 16).toUInt8 ::
          [(if c.toNat % 16 < 10 then 48 + c.toNat % 16 else 87 + c.toNat % 16).toUInt8] := by
      simp only [encode, List.flatMap_cons, List.flatMap_nil, encodeChar_hexDigit (show c.toNat / 16 < 16 by omega),
        encodeChar_hexDigit (show c.toNat % 16 < 16 by omega)]
      rfl
    rw [henc]
    simp only [List.cons_append, List.nil_append]
    rw [stringBody_unicode (unicodeEscape_control h8 (hexValue_digit (by omega))
      (hexValue_digit (by omega)) s), pushCodePoint, Char.ofNat_toNat]
  · -- any other character is copied byte by byte
    rw [if_neg h8]
    rw [show encode [c] = encodeChar c from List.flatMap_singleton .., stringBody_plain_append]
    intro b hb
    by_cases hlt : c.toNat < 0x80
    · rw [Utf8.encodeChar_of_lt hlt, List.mem_singleton] at hb
      subst hb
      have e : c.toNat.toUInt8.toNat = c.toNat := Utf8.toNat_toUInt8 (by omega)
      refine ⟨fun h => h1 (char_eq_ofNat ?_), fun h => h2 (char_eq_ofNat ?_), ?_⟩
      · rw [← e, h]; rfl
      · rw [← e, h]; rfl
      · rw [UInt8.lt_iff_toNat_lt, e]; simpa using h8
    · have := Utf8.le_of_mem_encodeChar (by omega) hb
      refine ⟨fun h => ?_, fun h => ?_, ?_⟩
      · rw [h] at this; simp at this
      · rw [h] at this; simp at this
      · rw [UInt8.lt_iff_toNat_lt]; simp; omega

/-- A quoted text, read after its opening quote, gives the bytes of the text. -/
theorem stringBody_escaped (cs : List Char) (acc s : Bytes) :
    (stringBody acc (encode (cs.flatMap escapeChar) ++ 34 :: s)).out =
      .ok (acc.reverse ++ encode cs, s) := by
  induction cs generalizing acc with
  | nil =>
    show (stringBody acc (34 :: s)).out = .ok (acc.reverse ++ [], s)
    rw [List.append_nil]
    exact stringBody_quote
  | cons c cs ih =>
    rw [List.flatMap_cons, Utf8.encode_append, List.append_assoc, stringBody_escapeChar, ih,
      List.reverse_append, List.reverse_reverse, List.append_assoc]
    rfl

theorem ofString_quoteText (cs : List Char) :
    Bytes.ofString (quoteText cs) = 34 :: (encode (cs.flatMap escapeChar) ++ [34]) := by
  rw [quoteText, Utf8.ofString_eq_encode, String.toList_ofList, List.cons_append, encode,
    List.flatMap_cons, ← encode, Utf8.encode_append]
  rfl

/-- The JSON string of UTF-8 bytes reads back as those bytes, whatever follows it. -/
theorem value_quoteText {b : Bytes} {cs : List Char} (h : Utf8.decode? b = some cs) (d : Nat)
    (s : Bytes) : (value d (Bytes.ofString (quoteText cs) ++ s)).out = .ok (.str b, s) := by
  have hsk : (skipBlank (Bytes.ofString (quoteText cs) ++ s)).1 =
      34 :: (encode (cs.flatMap escapeChar) ++ 34 :: s) := by
    rw [ofString_quoteText, List.cons_append, skipBlank_of_not_blank _ (by decide)]
    simp [Rest.all]
  rw [value_of_quote hsk, stringBody_escaped, ← Utf8.eq_encode_of_decode? h]
  rfl

/-! ## Reading keeps UTF-8 -/

theorem ascii_of_hexValue {b : UInt8} {k : Nat} (h : hexValue b = some k) : b.toNat < 0x80 := by
  unfold hexValue at h
  split at h
  · rename_i hb
    simp only [UInt8.le_iff_toNat_le] at hb
    simp at hb
    omega
  split at h
  · rename_i hb
    simp only [UInt8.le_iff_toNat_le] at hb
    simp at hb
    omega
  split at h
  · rename_i hb
    simp only [UInt8.le_iff_toNat_le] at hb
    simp at hb
    omega
  · cases h

/-- Four hexadecimal digits are ASCII bytes, and nothing else is taken. -/
theorem hexQuad_eq_ok {r : Bytes} {n : Nat} {rest : Rest r} (h : hexQuad r = .ok (n, rest)) :
    ∃ p, r = p ++ rest.1 ∧ ∀ b ∈ p, b.toNat < 0x80 := by
  match r, rest, h with
  | a :: b :: c :: d :: s, rest, h =>
    rw [hexQuad] at h
    cases ha : hexValue a <;> cases hb : hexValue b <;> cases hc : hexValue c <;>
      cases hd : hexValue d <;> rw [ha, hb, hc, hd] at h <;> try cases h
    -- all four are hexadecimal digits
    refine ⟨[a, b, c, d], rfl, fun e he => ?_⟩
    simp only [List.mem_cons, List.not_mem_nil, or_false] at he
    rcases he with rfl | rfl | rfl | rfl
    · exact ascii_of_hexValue ha
    · exact ascii_of_hexValue hb
    · exact ascii_of_hexValue hc
    · exact ascii_of_hexValue hd
  | [], _, h => cases h
  | [_], _, h => cases h
  | [_, _], _, h => cases h
  | [_, _, _], _, h => cases h

/-- A `\u` escape takes only ASCII bytes: its digits, and those of a trailing surrogate. -/
theorem unicodeEscape_eq_ok {r : Bytes} {n : Nat} {rest : Rest r}
    (h : unicodeEscape r = .ok (n, rest)) : ∃ p, r = p ++ rest.1 ∧ ∀ b ∈ p, b.toNat < 0x80 := by
  unfold unicodeEscape at h
  split at h
  · cases h
  rename_i m s hs hq
  obtain ⟨p, hp, hpa⟩ := hexQuad_eq_ok hq
  split at h
  · cases h
  split at h
  · obtain ⟨-, rfl⟩ := Prod.mk.inj (Except.ok.inj h)
    exact ⟨p, hp, hpa⟩
  -- a leading surrogate: a backslash, a `u` and four more digits follow
  split at h
  · cases h
  · split at h
    · cases h
    · split at h
      · cases h
      · rename_i s2 _ _ m2 s3 h3 hq2
        obtain ⟨p2, hp2, hpa2⟩ := hexQuad_eq_ok hq2
        split at h
        · obtain ⟨-, rfl⟩ := Prod.mk.inj (Except.ok.inj h)
          refine ⟨p ++ 92 :: 117 :: p2, ?_, fun b hb => ?_⟩
          · show r = p ++ 92 :: 117 :: p2 ++ s3
            simp only at hp hp2
            rw [hp, hp2]
            simp
          · simp only [List.mem_append, List.mem_cons] at hb
            rcases hb with hb | rfl | rfl | hb
            · exact hpa b hb
            · decide
            · decide
            · exact hpa2 b hb
        · cases h
    · cases h
  · cases h

theorem isValid_ascii_append {p : Bytes} (r : Bytes) (hp : ∀ b ∈ p, b.toNat < 0x80) :
    isValid (p ++ r) = isValid r := by
  induction p with
  | nil => rfl
  | cons b p ih =>
    rw [List.cons_append, Utf8.isValid_cons _ (hp b List.mem_cons_self),
      ih fun x hx => hp x (List.mem_cons_of_mem b hx)]

/-- From a UTF-8 text the string reader reads UTF-8 bytes and leaves UTF-8 bytes after the
closing quote. The invariant: what was read so far, followed by what is left, is UTF-8. -/
theorem stringBody_isValid {acc r : Bytes} (hv : isValid (acc.reverse ++ r) = true)
    {b rest : Bytes} (h : (stringBody acc r).out = .ok (b, rest)) :
    isValid b = true ∧ isValid rest = true := by
  induction acc, r using stringBody.induct with
  | case1 acc =>
    rw [stringBody.eq_def] at h
    cases h
  | case2 acc s =>
    rw [stringBody_quote] at h
    obtain ⟨rfl, rfl⟩ := Prod.mk.inj (Except.ok.inj h)
    obtain ⟨ha, hs⟩ := Utf8.isValid_append_cons hv (by decide)
    exact ⟨ha, by rwa [Utf8.isValid_cons _ (by decide)] at hs⟩
  | case3 acc =>
    rw [stringBody.eq_def] at h
    cases h
  | case4 acc e s' simple c hsimple _ ih =>
    -- a two-byte escape: both bytes are ASCII, so the bytes after it are UTF-8 again
    have hesc : IsShortEscape e c := .of_table hsimple
    obtain ⟨he, hc⟩ := hesc.ascii
    rw [stringBody_escape hesc] at h
    obtain ⟨ha, hs⟩ := Utf8.isValid_append_cons hv (by decide)
    rw [Utf8.isValid_cons _ (by decide), Utf8.isValid_cons _ he] at hs
    refine ih ?_ h
    rw [List.reverse_cons, List.append_assoc, List.singleton_append]
    exact Utf8.isValid_append ha (by rwa [Utf8.isValid_cons _ hc])
  | case5 acc s' err herr =>
    rw [stringBody_unicode_error herr] at h
    cases h
  | case6 acc s' n s3 h3 hu _ simple _ ih =>
    -- a `\u` escape: its digits are ASCII, and its character is encoded as UTF-8
    rw [stringBody_unicode (by rw [hu]; rfl)] at h
    obtain ⟨p, hp, hpa⟩ := unicodeEscape_eq_ok hu
    obtain ⟨ha, hs⟩ := Utf8.isValid_append_cons hv (by decide)
    rw [Utf8.isValid_cons _ (by decide), Utf8.isValid_cons _ (by decide), hp,
      isValid_ascii_append _ hpa] at hs
    refine ih ?_ h
    rw [pushCodePoint, List.reverse_append, List.reverse_reverse, List.append_assoc]
    refine Utf8.isValid_append ha (Utf8.isValid_append ?_ hs)
    exact Utf8.isValid_iff.2 ⟨[Char.ofNat n], by rw [Utf8.encode, List.flatMap_singleton]⟩
  | case7 acc e s' simple hsimple he _ =>
    simp only [simple, dite_eq_ite] at hsimple
    rw [stringBody.eq_def] at h
    dsimp only at h
    rw [if_neg (by decide), if_pos rfl, hsimple] at h
    dsimp only at h
    rw [if_neg he] at h
    cases h
  | case8 acc c s h34 h92 h32 =>
    rw [stringBody.eq_def] at h
    dsimp only at h
    rw [if_neg h34, if_neg h92, if_pos h32] at h
    cases h
  | case9 acc c s h34 h92 h32 ih =>
    rw [stringBody_plain h34 h92 h32] at h
    refine ih ?_ h
    rwa [List.reverse_cons, List.append_assoc]

end HandlerKit.Json
