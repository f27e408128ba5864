import HandlerKit.Proofs.Utf8
import HandlerKit.Request.Reply

/-!
# Tokens and decimal lengths on the wire

Requests and replies are framed by two devices that carry no escaping: a token ended by the
first blank, and a decimal length followed by a colon. Both are read back uniquely only
because the token holds no blank and the decimal holds no colon.

* `append_cons_inj_of_not_mem` — cutting a list at the first occurrence of a byte is
  unique: this is what makes both devices decodable.
* `IsToken` — a token that may stand in a frame: not empty and without a blank.
  `checkToken_of_isToken` and `checkToken_of_not_isToken` say what the check answers, and
  `splitToken_append` and `eq_of_splitToken` that splitting a token off is the inverse of
  writing it with its blank.
* `decimal_digits`, `decimal_injective` — a length is written in ASCII digits only, and
  different lengths are written differently.
-/

namespace HandlerKit

/-! ## Cutting at the first occurrence -/

section Cut

variable {α : Type} {x : α}

/-- Two ways of writing a list as a prefix free of `x`, then `x`, then the rest, agree. -/
theorem append_cons_inj_of_not_mem {a a' b b' : List α} (ha : x ∉ a) (ha' : x ∉ a')
    (h : a ++ x :: b = a' ++ x :: b') : a = a' ∧ b = b' := by
  induction a generalizing a' with
  | nil =>
    cases a' with
    | nil => exact ⟨rfl, List.cons.inj h |>.2⟩
    | cons y a' =>
      have hxy : x = y := (List.cons.inj h).1
      exact absurd (hxy ▸ List.mem_cons_self) ha'
  | cons y a ih =>
    cases a' with
    | nil =>
      have hyx : y = x := (List.cons.inj h).1
      exact absurd (hyx ▸ List.mem_cons_self) ha
    | cons y' a' =>
      simp only [List.cons_append, List.cons.injEq] at h
      obtain ⟨rfl, h⟩ := h
      obtain ⟨rfl, rfl⟩ := ih (fun hx => ha (List.mem_cons_of_mem y hx))
        (fun hx => ha' (List.mem_cons_of_mem y hx)) h
      exact ⟨rfl, rfl⟩

/-- A list with a member failing `p` is a prefix of members satisfying `p`, then the first
member failing it, then the rest. -/
theorem exists_first_not {p : α → Prop} [DecidablePred p] {l : List α} (h : ¬ ∀ a ∈ l, p a) :
    ∃ pre a post, l = pre ++ a :: post ∧ (∀ y ∈ pre, p y) ∧ ¬ p a := by
  induction l with
  | nil => simp at h
  | cons y l ih =>
    by_cases hy : p y
    · have hl : ¬ ∀ a ∈ l, p a := fun hl => h fun a ha =>
        (List.mem_cons.1 ha).elim (fun e => e ▸ hy) (hl a)
      obtain ⟨pre, a, post, rfl, hpre, ha⟩ := ih hl
      refine ⟨y :: pre, a, post, rfl, fun z hz => ?_, ha⟩
      exact (List.mem_cons.1 hz).elim (fun e => e ▸ hy) (hpre z)
    · exact ⟨[], y, l, rfl, fun z hz => absurd hz List.not_mem_nil, hy⟩

/-- A list holding `x` is a prefix free of `x`, then `x`, then the rest. -/
theorem exists_append_cons_of_mem [DecidableEq α] {l : List α} (h : x ∈ l) :
    ∃ a b, x ∉ a ∧ l = a ++ x :: b := by
  have hnot : ¬ ∀ y ∈ l, y ≠ x := fun hl => hl x h rfl
  obtain ⟨a, y, b, rfl, ha, hy⟩ := exists_first_not hnot
  refine ⟨a, b, fun hx => ha x hx rfl, ?_⟩
  rw [Classical.not_not.1 hy]

end Cut

/-! ## Blank-terminated tokens -/

open Request (blank)

/-- A token that can be written in a frame: not empty, and no blank in it. -/
def IsToken (t : Bytes) : Prop := t ≠ [] ∧ blank ∉ t

instance : DecidablePred IsToken := fun t => inferInstanceAs (Decidable (t ≠ [] ∧ blank ∉ t))

/-- The error a token check reports for bytes that are no token. -/
def tokenError (field : Field) (t : Bytes) : Error :=
  if t = [] then .malformed (.emptyToken field) else .malformed (.embeddedSpace field)

theorem checkToken_of_isToken {field : Field} {t : Bytes} (h : IsToken t) :
    Reply.checkToken field t = .ok () := by
  simp [Reply.checkToken, h.1, h.2]

theorem checkToken_of_not_isToken {field : Field} {t : Bytes} (h : ¬ IsToken t) :
    Reply.checkToken field t = .error (tokenError field t) := by
  by_cases he : t = []
  · simp [Reply.checkToken, tokenError, he]
  · have hb : blank ∈ t := Classical.byContradiction fun hb => h ⟨he, hb⟩
    simp [Reply.checkToken, tokenError, he, hb]

theorem takeWhile_append_blank {t : Bytes} (r : Bytes) (h : blank ∉ t) :
    (t ++ blank :: r).takeWhile (· != blank) = t := by
  induction t with
  | nil => simp
  | cons b t ih =>
    have hb : b ≠ blank := fun e => h (e ▸ List.mem_cons_self)
    simp [hb, ih fun e => h (List.mem_cons_of_mem b e)]

theorem dropWhile_append_blank {t : Bytes} (r : Bytes) (h : blank ∉ t) :
    (t ++ blank :: r).dropWhile (· != blank) = blank :: r := by
  induction t with
  | nil => simp
  | cons b t ih =>
    have hb : b ≠ blank := fun e => h (e ▸ List.mem_cons_self)
    simp [hb, ih fun e => h (List.mem_cons_of_mem b e)]

/-- A token written with its blank is split off again, whatever follows. -/
theorem splitToken_append {field : Field} {t : Bytes} (r : Bytes) (h : IsToken t) :
    Request.splitToken field (t ++ blank :: r) = .ok (t, r) := by
  simp only [Request.splitToken, takeWhile_append_blank r h.2, dropWhile_append_blank r h.2,
    if_neg h.1]

theorem dropWhile_of_not_mem {t : Bytes} (h : blank ∉ t) : t.dropWhile (· != blank) = [] := by
  induction t with
  | nil => rfl
  | cons b t ih =>
    have hb : b ≠ blank := fun e => h (e ▸ List.mem_cons_self)
    simp [hb, ih fun e => h (List.mem_cons_of_mem b e)]

/-- What `splitToken` splits off is a token, and the input was that token, a blank, and
the rest. -/
theorem eq_of_splitToken {field : Field} {buf t r : Bytes}
    (h : Request.splitToken field buf = .ok (t, r)) : IsToken t ∧ buf = t ++ blank :: r := by
  by_cases hb : blank ∈ buf
  · obtain ⟨t', r', ht', rfl⟩ := exists_append_cons_of_mem hb
    by_cases he : t' = []
    · subst he
      simp [Request.splitToken] at h
    · rw [splitToken_append r' ⟨he, ht'⟩] at h
      obtain ⟨rfl, rfl⟩ := Prod.mk.inj (Except.ok.inj h)
      exact ⟨⟨he, ht'⟩, rfl⟩
  · simp [Request.splitToken, dropWhile_of_not_mem hb] at h

/-! ## Decimal lengths -/

namespace Reply

theorem decimal_eq_map (n : Nat) :
    decimal n = (Nat.toDigits 10 n).map fun c => c.toNat.toUInt8 := by
  rw [decimal, Nat.toString_eq_ofList_toDigits]
  refine Utf8.ofString_ofList_ascii fun c hc => ?_
  have := Nat.isDigit_of_mem_toDigits (by decide) (by decide) hc
  simp only [Char.isDigit, Bool.and_eq_true, decide_eq_true_eq, UInt32.le_iff_toNat_le] at this
  simp at this
  omega

theorem toNat_of_mem_toDigits {n : Nat} {c : Char} (hc : c ∈ Nat.toDigits 10 n) :
    48 ≤ c.toNat ∧ c.toNat ≤ 57 := by
  have := Nat.isDigit_of_mem_toDigits (by decide) (by decide) hc
  simp only [Char.isDigit, Bool.and_eq_true, decide_eq_true_eq, UInt32.le_iff_toNat_le] at this
  simpa using this

/-- A length is written in ASCII digits only. -/
theorem decimal_digits (n : Nat) : ∀ b ∈ decimal n, Tnetstring.isDigit b := by
  intro b hb
  rw [decimal_eq_map, List.mem_map] at hb
  obtain ⟨c, hc, rfl⟩ := hb
  have := toNat_of_mem_toDigits hc
  simp only [Tnetstring.isDigit, Bool.and_eq_true, decide_eq_true_eq, UInt8.le_iff_toNat_le]
  simp [Nat.mod_eq_of_lt (show c.toNat < 256 by omega)]
  omega

/-- Reading the digits of a length gives the length back. -/
theorem digitsValue_decimal (n : Nat) : Tnetstring.digitsValue (decimal n) = n := by
  suffices h : ∀ (cs : List Char), (∀ c ∈ cs, c.toNat < 256) → ∀ init,
      (cs.map fun c => c.toNat.toUInt8).foldl (fun acc b => acc * 10 + (b.toNat - 48)) init =
        Nat.ofDigitChars 10 cs init by
    rw [Tnetstring.digitsValue, decimal_eq_map,
      h _ (fun c hc => by have := toNat_of_mem_toDigits hc; omega), Nat.ofDigitChars_ten_toDigits]
  intro cs hcs
  induction cs with
  | nil => intro init; rfl
  | cons c cs ih =>
    intro init
    have hc : (c.toNat.toUInt8).toNat = c.toNat := by
      simp [Nat.mod_eq_of_lt (hcs c List.mem_cons_self)]
    simp only [List.map_cons, List.foldl_cons, Nat.ofDigitChars_cons, hc,
      ih (fun d hd => hcs d (List.mem_cons_of_mem c hd))]
    rw [Nat.mul_comm]
    rfl

theorem decimal_injective {m n : Nat} (h : decimal m = decimal n) : m = n := by
  rw [← digitsValue_decimal m, h, digitsValue_decimal]

end Reply

end HandlerKit
