import HandlerKit.Tnetstring.Reader

/-!
# Scalar payloads of TNetstring frames

The payload of a scalar frame is read by its tag: a string is the bytes as they are; an
integer and a float must be text, read as a 64-bit integer and a binary64 literal; a boolean is exactly
`true` or `false`; null is empty. This file states each rule as a relation and proves
`readScalar` decides it.

* `IntText.Spelling` — the grammar `[+-]?[0-9]+` with a value in `[-2^63, 2^63)`;
  `IntText.readInt_eq_ok_iff` shows the digit-by-digit reader, with its early overflow stops,
  accepts exactly that grammar.
* `FloatText.ascii_of_read` — every text the float reader accepts is ASCII, so the UTF-8
  check before it never refuses an accepted float.
* `Tnetstring.Scalar`, `Tnetstring.readScalar_eq_ok_iff` — the scalar payload relation and
  its decision by `readScalar`.
-/

namespace HandlerKit

/-! ## ASCII text -/

namespace Utf8

theorem next_of_lt {b : UInt8} (h : b < 0x80) (rest : List UInt8) :
    next b rest = (scalarOf b.toNat, 0) := by
  simp [next, h]

/-- ASCII bytes are UTF-8 text, one character each. -/
theorem decode?_of_ascii : ∀ {bs : List UInt8}, (∀ b ∈ bs, b < 0x80) →
    decode? bs = some (bs.map fun b => Char.ofNat b.toNat)
  | [], _ => by rw [decode?, pieces]; rfl
  | b :: rest, h => by
    have ih := @decode?_of_ascii rest fun c hc => h c (List.mem_cons_of_mem b hc)
    rw [decode?, pieces, next_of_lt (h b List.mem_cons_self)]
    rw [decode?] at ih
    simp [scalarOf, ih]

end Utf8

/-! ## Integer text -/

namespace IntText

/-- The number some digits spell after the digits `m`. -/
def valueAfter (m : Nat) (ds : List UInt8) : Nat :=
  ds.foldl (fun acc b => acc * 10 + (b.toNat - 48)) m

theorem le_valueAfter (m : Nat) (ds : List UInt8) : m ≤ valueAfter m ds := by
  induction ds generalizing m with
  | nil => exact Nat.le_refl m
  | cons b ds ih => exact Nat.le_trans (by omega) (ih (m * 10 + (b.toNat - 48)))

theorem pow63 : (Nat.pow 2 63 : Int) = 9223372036854775808 := by decide

theorem accumulate_pos {m : Nat} (hm : m < Nat.pow 2 63) {ds : List UInt8} {r : Int} :
    accumulate true m ds = .ok r ↔
      (∀ b ∈ ds, isDigit b) ∧ r = valueAfter m ds ∧ valueAfter m ds < Nat.pow 2 63 := by
  induction ds generalizing m with
  | nil =>
    simp only [accumulate, Except.ok.injEq, List.not_mem_nil, false_implies, implies_true, true_and, valueAfter, List.foldl_nil]
    constructor
    · rintro rfl; exact ⟨rfl, hm⟩
    · rintro ⟨rfl, -⟩; rfl
  | cons b ds ih =>
    have hpow := pow63
    by_cases hb : isDigit b
    · have hnext : ((m : Int) * 10 + ((b.toNat - 48 : Nat) : Int)) = ((m * 10 + (b.toNat - 48) : Nat) : Int) := by
        push_cast; rfl
      have hv : valueAfter m (b :: ds) = valueAfter (m * 10 + (b.toNat - 48)) ds := rfl
      by_cases hbig : Nat.pow 2 63 ≤ m * 10 + (b.toNat - 48)
      · have hle := le_valueAfter (m * 10 + (b.toNat - 48)) ds
        simp only [accumulate, hb, if_true, true_and, hnext]
        rw [if_pos (by omega)]
        simp only [reduceCtorEq, false_iff, not_and, hv]
        intro _ _
        omega
      · have hsmall : m * 10 + (b.toNat - 48) < Nat.pow 2 63 := by omega
        simp only [accumulate, hb, if_true, true_and, hnext]
        rw [if_neg (by omega), if_neg (by simp), ih hsmall]
        simp [hb, hv]
    · simp [accumulate, hb]

theorem accumulate_neg {m : Nat} (hm : m ≤ Nat.pow 2 63) {ds : List UInt8} {r : Int} :
    accumulate false (-(m : Int)) ds = .ok r ↔
      (∀ b ∈ ds, isDigit b) ∧ r = -(valueAfter m ds : Int) ∧ valueAfter m ds ≤ Nat.pow 2 63 := by
  induction ds generalizing m with
  | nil =>
    simp only [accumulate, Except.ok.injEq, List.not_mem_nil, false_implies, implies_true,
      true_and, valueAfter, List.foldl_nil]
    constructor
    · rintro rfl; exact ⟨rfl, hm⟩
    · rintro ⟨rfl, -⟩; rfl
  | cons b ds ih =>
    have hpow := pow63
    by_cases hb : isDigit b
    · have hnext : -(m : Int) * 10 - ((b.toNat - 48 : Nat) : Int) =
          -((m * 10 + (b.toNat - 48) : Nat) : Int) := by
        push_cast; omega
      have hv : valueAfter m (b :: ds) = valueAfter (m * 10 + (b.toNat - 48)) ds := rfl
      by_cases hbig : Nat.pow 2 63 < m * 10 + (b.toNat - 48)
      · have hle := le_valueAfter (m * 10 + (b.toNat - 48)) ds
        simp only [accumulate, hb, if_true, hnext, Bool.false_eq_true, false_and, if_false,
          not_false_eq_true, true_and]
        rw [if_pos (by omega)]
        simp only [reduceCtorEq, false_iff, not_and, hv]
        intro _ _
        exact Nat.not_le.2 (Nat.lt_of_lt_of_le hbig hle)
      · have hsmall : m * 10 + (b.toNat - 48) ≤ Nat.pow 2 63 := by omega
        simp only [accumulate, hb, if_true, hnext, Bool.false_eq_true, false_and, if_false,
          not_false_eq_true, true_and]
        rw [if_neg (by omega), ih hsmall]
        simp [hb, hv]
    · simp [accumulate, hb]

/-- The decimal text of a 64-bit integer: an optional `+` or `-`, then at least one ASCII
digit, with a value in `[-2^63, 2^63)`. -/
inductive Spelling : List UInt8 → Int → Prop
  | plain {ds : List UInt8} (hne : ds ≠ []) (hd : ∀ b ∈ ds, isDigit b)
      (hv : valueAfter 0 ds < Nat.pow 2 63) : Spelling ds (valueAfter 0 ds)
  | plus {ds : List UInt8} (hne : ds ≠ []) (hd : ∀ b ∈ ds, isDigit b)
      (hv : valueAfter 0 ds < Nat.pow 2 63) : Spelling (43 :: ds) (valueAfter 0 ds)
  | minus {ds : List UInt8} (hne : ds ≠ []) (hd : ∀ b ∈ ds, isDigit b)
      (hv : valueAfter 0 ds ≤ Nat.pow 2 63) : Spelling (45 :: ds) (-(valueAfter 0 ds : Int))

theorem digit_ne_sign {b : UInt8} (hb : isDigit b) : b ≠ 43 ∧ b ≠ 45 := by
  constructor <;> (rintro rfl; revert hb; decide)

theorem readInt_eq_ok_iff {text : List UInt8} {n : Int} :
    readInt text = .ok n ↔ Spelling text n := by
  constructor
  · intro h
    unfold readInt at h
    split at h
    · cases h
    · cases h
    · cases h
    · rename_i ds hne
      obtain ⟨hd, rfl, hv⟩ := (accumulate_pos (m := 0) (by decide)).1 h
      exact .plus hne hd hv
    · rename_i ds hne
      obtain ⟨hd, rfl, hv⟩ := (accumulate_neg (m := 0) (by decide)).1 (by simpa using h)
      exact .minus hne hd hv
    · rename_i hne _ _ _ _
      obtain ⟨hd, rfl, hv⟩ := (accumulate_pos (m := 0) (by decide)).1 h
      exact .plain hne hd hv
  · intro h
    cases h with
    | plain hne hd hv =>
      obtain ⟨b, ds, rfl⟩ := List.exists_cons_of_ne_nil hne
      have hb := digit_ne_sign (hd b List.mem_cons_self)
      unfold readInt
      split
      case h_6 => exact (accumulate_pos (m := 0) (by decide)).2 ⟨hd, rfl, hv⟩
      -- the other patterns need an empty text or a sign first
      all_goals simp_all
    | plus hne hd hv =>
      obtain ⟨b, ds, rfl⟩ := List.exists_cons_of_ne_nil hne
      exact (accumulate_pos (m := 0) (by decide)).2 ⟨hd, rfl, hv⟩
    | minus hne hd hv =>
      obtain ⟨b, ds, rfl⟩ := List.exists_cons_of_ne_nil hne
      have := (accumulate_neg (m := 0) (by decide)).2 ⟨hd, rfl, hv⟩
      show accumulate false 0 (b :: ds) = _
      simpa using this

theorem lt_of_isDigit {b : UInt8} (h : isDigit b) : b < 0x80 := by
  simp only [isDigit, Bool.and_eq_true, decide_eq_true_eq] at h
  exact UInt8.lt_of_le_of_lt h.2 (by decide)

/-- An integer text is ASCII. -/
theorem ascii_of_spelling {text : List UInt8} {n : Int} (h : Spelling text n) :
    ∀ b ∈ text, b < 0x80 := by
  cases h with
  | plain _ hd _ => exact fun b hb => lt_of_isDigit (hd b hb)
  | plus _ hd _ =>
    exact fun b hb => (List.mem_cons.1 hb).elim (fun e => e ▸ by decide) (fun hb =>
      lt_of_isDigit (hd b hb))
  | minus _ hd _ =>
    exact fun b hb => (List.mem_cons.1 hb).elim (fun e => e ▸ by decide) (fun hb =>
      lt_of_isDigit (hd b hb))

theorem read_eq_ok_iff {text : List UInt8} {n : Int64} :
    read text = .ok n ↔ ∃ m, Spelling text m ∧ n = Int64.ofInt m := by
  unfold read
  cases hm : readInt text with
  | error e =>
    simp only [Except.map, reduceCtorEq, false_iff, not_exists, not_and]
    intro m hs
    rw [readInt_eq_ok_iff.2 hs] at hm
    cases hm
  | ok m =>
    have hs := readInt_eq_ok_iff.1 hm
    constructor
    · intro h
      exact ⟨m, hs, (Except.ok.inj h).symm⟩
    · rintro ⟨m', hs', rfl⟩
      rw [readInt_eq_ok_iff.2 hs'] at hm
      obtain rfl := Except.ok.inj hm
      rfl

end IntText

/-! ## Float text -/

namespace FloatText

theorem lt_of_isDigit {b : UInt8} (h : isDigit b) : b < 128 := by
  simp only [isDigit, Bool.and_eq_true, decide_eq_true_eq] at h
  exact UInt8.lt_of_le_of_lt h.2 (by decide)

/-- A list whose leading run of `p` bytes is ASCII and whose rest is ASCII is ASCII. -/
theorem ascii_of_dropWhile {p : UInt8 → Bool} (hp : ∀ b, p b → b < 128) {s : List UInt8}
    (h : ∀ b ∈ s.dropWhile p, b < 128) : ∀ b ∈ s, b < 128 := by
  intro b hb
  rw [← List.takeWhile_append_dropWhile (p := p) (l := s), List.mem_append] at hb
  rcases hb with hb | hb
  · exact hp b (List.all_eq_true.1 List.all_takeWhile b hb)
  · exact h b hb

theorem ascii_of_readExponent {s : List UInt8} {x : Int} (h : readExponent s = some x) :
    ∀ b ∈ s, b < 128 := by
  unfold readExponent at h
  split at h
  rename_i neg ds heq
  split at h
  · rename_i hds
    have hds' : ∀ b ∈ ds, b < 128 := fun b hb => lt_of_isDigit (List.all_eq_true.1 hds.2 b hb)
    split at heq <;> obtain ⟨-, rfl⟩ := Prod.mk.inj heq
    · exact fun b hb => (List.mem_cons.1 hb).elim (fun e => e ▸ by decide) (hds' b)
    · exact fun b hb => (List.mem_cons.1 hb).elim (fun e => e ▸ by decide) (hds' b)
    · exact hds'
  · cases h

/-- What follows the digits of a numeral, an optional exponent, is ASCII. -/
theorem ascii_of_exponentPart {t : List UInt8} {some0 : Numeral} {f : Int → Numeral} {n : Numeral}
    (h : (match t with
      | [] => some some0
      | e :: r => if e = 101 ∨ e = 69 then (readExponent r).map f else none) = some n) :
    ∀ b ∈ t, b < 128 := by
  split at h
  · exact fun b hb => absurd hb List.not_mem_nil
  · rename_i e r
    split at h
    · rename_i he
      obtain ⟨x, hx, -⟩ := Option.map_eq_some_iff.1 h
      have hr := ascii_of_readExponent hx
      have he' : e < 128 := by rcases he with rfl | rfl <;> decide
      exact fun b hb => (List.mem_cons.1 hb).elim (fun e => e ▸ he') (hr b)
    · cases h

theorem ascii_of_readNumeral {s : List UInt8} {n : Numeral} (h : readNumeral s = some n) :
    ∀ b ∈ s, b < 128 := by
  unfold readNumeral at h
  refine ascii_of_dropWhile (fun b hb => lt_of_isDigit hb) ?_
  generalize s.takeWhile isDigit = whole at h
  generalize s.dropWhile isDigit = afterWhole at h ⊢
  dsimp only at h
  split at h
  · rename_i r
    split at h
    · cases h
    · have hr := ascii_of_dropWhile (fun b hb => lt_of_isDigit hb) (ascii_of_exponentPart h)
      exact fun b hb => (List.mem_cons.1 hb).elim (fun e => e ▸ by decide) (hr b)
  · split at h
    · cases h
    · exact ascii_of_exponentPart h

theorem lt_of_upper_lt {b : UInt8} (h : upper b < 128) : b < 128 := by
  unfold upper at h
  split at h
  · rename_i hb
    exact UInt8.lt_of_le_of_lt hb.2 (by decide)
  · exact h

theorem ascii_of_readWord {s : List UInt8} {x : Binary64} (h : readWord s = some x) :
    ∀ b ∈ s, b < 128 := by
  have hw : ∀ c ∈ s.map upper, c < 128 := by
    unfold readWord at h
    dsimp only at h
    split at h
    · rename_i hw
      rcases hw with hw | hw <;> rw [hw] <;> simp
    · split at h
      · rename_i hw
        rw [hw]
        simp
      · cases h
  exact fun b hb => lt_of_upper_lt (hw _ (List.mem_map_of_mem hb))

/-- Every text the float reader accepts is ASCII. -/
theorem ascii_of_read {text : List UInt8} {x : Binary64} (h : read text = .ok x) :
    ∀ b ∈ text, b < 128 := by
  unfold read at h
  split at h
  · cases h
  · rename_i c rest
    dsimp only at h
    have hbody : ∀ b ∈ (if c = 45 ∨ c = 43 then rest else c :: rest), b < 128 := by
      generalize (if c = 45 ∨ c = 43 then rest else c :: rest) = body at h
      split at h
      · cases h
      · split at h
        · exact ascii_of_readNumeral ‹_›
        · split at h
          · exact ascii_of_readWord ‹_›
          · cases h
    by_cases hc : c = 45 ∨ c = 43
    · rw [if_pos hc] at hbody
      have : c < 128 := by rcases hc with rfl | rfl <;> decide
      exact fun b hb => (List.mem_cons.1 hb).elim (fun e => e ▸ this) (hbody b)
    · rwa [if_neg hc] at hbody

end FloatText

/-! ## The scalar payload relation -/

namespace Tnetstring

/-- A frame of the scalar kind `tag` with payload `p` stands for `v`. -/
inductive Scalar : Tag → Bytes → Value → Prop
  | string (p : Bytes) : Scalar .string p (.str p)
  | integer {p : Bytes} {n : Int} (h : IntText.Spelling p n) :
      Scalar .integer p (.int (Int64.ofInt n))
  | float {p : Bytes} {x : Binary64} (h : FloatText.read p = .ok x) : Scalar .float p (.float x)
  | true : Scalar .boolean trueBytes (.bool Bool.true)
  | false : Scalar .boolean falseBytes (.bool Bool.false)
  | null : Scalar .null [] .null

theorem readScalar_eq_ok_iff {tag : Tag} {p : Bytes} {v : Value} (hd : tag ≠ .dict)
    (hl : tag ≠ .list) : readScalar tag p = .ok v ↔ Scalar tag p v := by
  cases tag with
  | dict => exact absurd rfl hd
  | list => exact absurd rfl hl
  | string =>
    constructor
    · intro h
      obtain rfl := (Except.ok.inj h).symm
      exact .string p
    · rintro ⟨⟩
      rfl
  | integer =>
    constructor
    · intro h
      simp only [readScalar] at h
      split at h
      · cases h
      · split at h
        · rename_i n hn
          obtain rfl := (Except.ok.inj h).symm
          obtain ⟨m, hs, rfl⟩ := IntText.read_eq_ok_iff.1 hn
          exact .integer hs
        · cases h
    · intro h
      cases h with | integer hs => ?_
      simp only [readScalar, Utf8.decode?_of_ascii (IntText.ascii_of_spelling hs),
        IntText.read_eq_ok_iff.2 ⟨_, hs, rfl⟩]
  | float =>
    constructor
    · intro h
      simp only [readScalar] at h
      split at h
      · cases h
      · split at h
        · rename_i x hx
          obtain rfl := (Except.ok.inj h).symm
          exact .float hx
        · cases h
    · intro h
      cases h with | float hx => ?_
      simp only [readScalar, Utf8.decode?_of_ascii (FloatText.ascii_of_read hx), hx]
  | boolean =>
    constructor
    · intro h
      simp only [readScalar] at h
      split at h
      · rename_i hp
        obtain rfl := (Except.ok.inj h).symm
        exact hp ▸ .true
      · split at h
        · rename_i hp
          obtain rfl := (Except.ok.inj h).symm
          exact hp ▸ .false
        · cases h
    · rintro ⟨⟩
      · rfl
      · rfl
  | null =>
    constructor
    · intro h
      simp only [readScalar] at h
      split at h
      · rename_i hp
        obtain rfl := (Except.ok.inj h).symm
        exact hp ▸ .null
      · cases h
    · rintro ⟨⟩
      rfl

end Tnetstring

end HandlerKit
