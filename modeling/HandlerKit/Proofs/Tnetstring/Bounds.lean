import HandlerKit.Proofs.Tnetstring.Nesting
import HandlerKit.Proofs.Except

/-!
# Why reading TNetstrings terminates and stays in bounds

The reader is total: `readValue` and its two loops recurse on the bytes left, and the measure
decreases because of two facts about frames, proved here for every input.

* A frame is a length prefix, a colon, exactly the declared number of payload bytes and a tag
  byte (`eq_of_split`), so the payload a container's loop reads is at least three bytes
  shorter than the frame (`payload_add_three_le`).
* Every value read takes at least three bytes (`three_le_consumed`), so the dict and list
  loops shrink the bytes left at each turn.

The arithmetic on the way stays small. A length prefix has at most nine ASCII digits, so its
value, and each partial value of the fold that computes it, stays below `10^9`
(`digitsValue_lt`, `partial_digitsValue_lt`): no overflow even in 32 bits, and the digit
offset `b - 48` is taken of digits only. A declared length past the end is reported before the
payload is cut (`split_eq_outOfBounds_iff`), and the count of bytes a read at an offset took
is the exact difference of two lengths (`readAt_eq_ok`).

The nesting level never exceeds `1 + |d| / 3`: each level of nesting costs three bytes of
framing. So every limit above `|d| / 3` reads `d` alike (`readValue_congr_limit`), the largest
included, and the level counter needs no more room than the length of the input.
-/

namespace HandlerKit.Tnetstring

/-! ## Frames and their length prefix -/

theorem toNat_le_of_isDigit {b : UInt8} (h : isDigit b = true) :
    48 ≤ b.toNat ∧ b.toNat ≤ 57 := by
  simp only [isDigit, Bool.and_eq_true, decide_eq_true_eq] at h
  exact ⟨UInt8.le_iff_toNat_le.1 h.1, UInt8.le_iff_toNat_le.1 h.2⟩

/-- Folding digits onto an accumulator stays below the accumulator plus one, shifted by the
number of digits. -/
theorem foldl_digits_lt {ds : Bytes} (hds : ∀ b ∈ ds, isDigit b = true) :
    ∀ acc, ds.foldl (fun acc b => acc * 10 + (b.toNat - 48)) acc <
      (acc + 1) * Nat.pow 10 ds.length := by
  induction ds with
  | nil => intro acc; simp
  | cons b bs ih =>
    intro acc
    have hb := toNat_le_of_isDigit (hds b List.mem_cons_self)
    have ih := ih (fun x hx => hds x (List.mem_cons_of_mem b hx)) (acc * 10 + (b.toNat - 48))
    have hpow : Nat.pow 10 (bs.length + 1) = Nat.pow 10 bs.length * 10 := rfl
    rw [List.foldl_cons, List.length_cons, hpow]
    calc _ < (acc * 10 + (b.toNat - 48) + 1) * Nat.pow 10 bs.length := ih
      _ ≤ (acc + 1) * 10 * Nat.pow 10 bs.length := Nat.mul_le_mul_right _ (by omega)
      _ = (acc + 1) * (Nat.pow 10 bs.length * 10) := by rw [Nat.mul_assoc, Nat.mul_comm 10]

theorem digitsValue_lt_pow {ds : Bytes} (hds : ∀ b ∈ ds, isDigit b = true) :
    digitsValue ds < Nat.pow 10 ds.length := by
  have h := foldl_digits_lt hds 0
  rw [Nat.zero_add, Nat.one_mul] at h
  exact h

/-- A length prefix is below `10^9`. -/
theorem digitsValue_lt {ds : Bytes} {n : Nat} (hd : LengthDigits ds n) : n < 1000000000 := by
  obtain ⟨-, hlen, hdig, rfl⟩ := hd
  calc digitsValue ds < Nat.pow 10 ds.length := digitsValue_lt_pow hdig
    _ ≤ Nat.pow 10 maxLengthDigits := Nat.pow_le_pow_right (by decide) hlen
    _ = 1000000000 := rfl

/-- Each step of the fold over a length prefix, before the digit is added, stays below
`10^9`. -/
theorem partial_digitsValue_lt {ds : Bytes} {n : Nat} (hd : LengthDigits ds n) {k : Nat}
    (hk : k < ds.length) : digitsValue (ds.take k) * 10 + 9 < 1000000000 := by
  obtain ⟨-, hlen, hdig, -⟩ := hd
  have hlt : digitsValue (ds.take k) < Nat.pow 10 k := by
    have := @digitsValue_lt_pow (ds.take k) fun b hb => hdig b (List.mem_of_mem_take hb)
    rwa [List.length_take, Nat.min_eq_left (Nat.le_of_lt hk)] at this
  have hpow : Nat.pow 10 k ≤ Nat.pow 10 8 :=
    Nat.pow_le_pow_right (by decide) (by simp only [maxLengthDigits] at hlen; omega)
  have h8 : Nat.pow 10 8 = 100000000 := rfl
  omega

/-- The payload of a frame is at least three bytes shorter than the frame: a digit, the colon
and the tag byte. -/
theorem payload_add_three_le {data : Bytes} {f : Frame data} (h : Frame.split data = .ok f) :
    f.payload.length + f.rest.length + 3 ≤ data.length := by
  obtain ⟨ds, ⟨hne, -⟩, hdata⟩ := eq_of_split h
  have hds : ds.length ≠ 0 := by simpa using hne
  have hlen := congrArg List.length hdata
  simp only [List.length_append, List.length_cons] at hlen
  omega

/-- A declared length past the end is reported with the bytes after the colon, before the
payload is cut. -/
theorem split_eq_outOfBounds_iff {data : Bytes} {declared available : Nat} :
    Frame.split data = .error (.outOfBounds declared available) ↔
      ∃ ds body, LengthDigits ds declared ∧ data = ds ++ 58 :: body ∧
        available = body.length ∧ body.length ≤ declared := by
  constructor
  · intro h
    obtain ⟨ds, body, hd, rfl⟩ := exists_lengthDigits_of_split h nofun
    have hmap := split_lengthDigits hd body
    rw [h] at hmap
    cases hdrop : body.drop (digitsValue ds) with
    | cons t rest => rw [hdrop] at hmap; cases hmap
    | nil =>
      rw [hdrop] at hmap
      obtain ⟨rfl, rfl⟩ := Error.outOfBounds.inj (Except.error.inj hmap)
      exact ⟨ds, body, hd, rfl, rfl, List.drop_eq_nil_iff.1 hdrop⟩
  · rintro ⟨ds, body, hd, rfl, rfl, hshort⟩
    have hmap := split_lengthDigits hd body
    rw [List.drop_eq_nil_of_le hshort] at hmap
    cases hs : Frame.split (ds ++ 58 :: body) with
    | error e =>
      rw [hs] at hmap
      cases hmap
      rfl
    | ok f => rw [hs] at hmap; cases hmap

/-! ## Every value read takes at least three bytes -/

theorem IsFrame.three_le_length {e : Bytes} (h : IsFrame e) : 3 ≤ e.length := by
  obtain ⟨ds, p, t, ⟨hne, -⟩, rfl⟩ := h
  have hds : ds.length ≠ 0 := by simpa using hne
  simp only [List.length_append, List.length_cons]
  omega

/-- A value read at any level leaves at least three bytes fewer than it was given. -/
theorem three_le_consumed {limit level : Nat} {data : Bytes} {v : Value}
    {r : {r : Bytes // r.length < data.length}} (h : readValue limit level data = .ok (v, r)) :
    r.1.length + 3 ≤ data.length := by
  obtain ⟨e, hdata, he⟩ := encodes_of_readValue h
  have h3 := he.isFrame.three_le_length
  have hlen := congrArg List.length hdata
  rw [List.length_append] at hlen
  omega

/-- Reading at an offset takes at least three bytes, no more than there are after the offset,
and leaves exactly the bytes after those. -/
theorem readAt_eq_ok {data : Bytes} {start k : Nat} {v : Value}
    (h : readAt data start = .ok (v, k)) :
    3 ≤ k ∧ start + k ≤ data.length ∧
      readPrefix defaultDepth (data.drop start) = .ok (v, data.drop (start + k)) := by
  unfold readAt at h
  split at h
  · cases h
  · obtain ⟨⟨w, r⟩, hread, hk⟩ := map_eq_ok.1 h
    simp only [Prod.mk.injEq] at hk
    obtain ⟨rfl, rfl⟩ := hk
    obtain ⟨e, hslice, he⟩ := encodes_of_readPrefix hread
    have h3 := he.isFrame.three_le_length
    have hlen := congrArg List.length hslice
    rw [List.length_append] at hlen
    -- the count taken is the length of the frame read
    have hk : (data.drop start).length - r.length = e.length := by omega
    rw [List.length_drop] at hlen
    have hrest : data.drop (start + e.length) = r := by
      rw [← List.drop_drop, hslice, List.drop_left]
    rw [hk]
    refine ⟨h3, by omega, ?_⟩
    rw [hrest, hread]

/-! ## The nesting level stays below a third of the length -/

mutual
/-- Reading at `level` never passes the level `level + |data| / 3`, so every limit at least
that reads alike. -/
theorem readValue_congr_limit {m m' level : Nat} {data : Bytes}
    (hm : level + data.length / 3 ≤ m) (hm' : level + data.length / 3 ≤ m') :
    readValue m level data = readValue m' level data := by
  rw [readValue, readValue, if_neg (by omega), if_neg (by omega)]
  cases hs : Frame.split data with
  | error e => rfl
  | ok f =>
    -- the payload is a level deeper and three bytes shorter: the bound carries over
    have hp := payload_add_three_le hs
    have hb : (level + 1) + f.payload.length / 3 ≤ level + data.length / 3 := by omega
    dsimp only
    cases Tag.ofByte? f.tagByte with
    | none => rfl
    | some tag =>
      cases tag
      case dict =>
        rw [@readEntries_congr_limit m m' (level + 1) f.payload [] (by omega) (by omega)]
      case list =>
        rw [@readItems_congr_limit m m' (level + 1) f.payload [] (by omega) (by omega)]
      all_goals rfl
termination_by 2 * data.length
decreasing_by all_goals omega

theorem readItems_congr_limit {m m' level : Nat} {p : Bytes} {acc : List Value}
    (hm : level + p.length / 3 ≤ m) (hm' : level + p.length / 3 ≤ m') :
    readItems m level p acc = readItems m' level p acc := by
  cases p with
  | nil => rw [readItems, readItems]
  | cons b bs =>
    rw [readItems, readItems, readValue_congr_limit hm hm']
    cases hv : readValue m' level (b :: bs) with
    | error e => rfl
    | ok vr =>
      obtain ⟨v, rest, hrest⟩ := vr
      have hr := Nat.div_le_div_right (c := 3) (Nat.le_of_lt hrest)
      dsimp only
      exact readItems_congr_limit (by omega) (by omega)
termination_by 2 * p.length + 1
decreasing_by all_goals subst_vars; omega

theorem readEntries_congr_limit {m m' level : Nat} {p : Bytes} {acc : List (Bytes × Value)}
    (hm : level + p.length / 3 ≤ m) (hm' : level + p.length / 3 ≤ m') :
    readEntries m level p acc = readEntries m' level p acc := by
  cases p with
  | nil => rw [readEntries, readEntries]
  | cons b bs =>
    rw [readEntries, readEntries, readValue_congr_limit hm hm']
    cases hk : readValue m' level (b :: bs) with
    | error e => rfl
    | ok kr =>
      obtain ⟨k, rest, hrest⟩ := kr
      have hr := Nat.div_le_div_right (c := 3) (Nat.le_of_lt hrest)
      cases k
      case str k =>
        cases rest with
        | nil => rfl
        | cons c cs =>
          dsimp only
          rw [@readValue_congr_limit m m' level (c :: cs) (by omega) (by omega)]
          cases hv : readValue m' level (c :: cs) with
          | error e => rfl
          | ok vr =>
            obtain ⟨v, rest', hrest'⟩ := vr
            have hr' := Nat.div_le_div_right (c := 3) (Nat.le_of_lt hrest')
            exact readEntries_congr_limit (by omega) (by omega)
      all_goals rfl
termination_by 2 * p.length + 1
decreasing_by all_goals subst_vars; omega
end

/-- Every limit above a third of the length reads a prefix alike. -/
theorem readPrefix_congr_limit {m m' : Nat} {data : Bytes} (hm : data.length / 3 < m)
    (hm' : data.length / 3 < m') : readPrefix m data = readPrefix m' data := by
  rw [readPrefix, readPrefix, @readValue_congr_limit m m' 1 data (by omega) (by omega)]

/-! ## The reader stays in bounds -/

/-- Reading TNetstrings stays in bounds on every input. Every value read takes at least three
bytes; a frame is a length prefix of one to nine digits, a colon, exactly the declared payload
and a tag byte; the value of a length prefix, and each step of the fold computing it, is below
`10^9`; a declared length past the end is reported with the bytes after the colon; a read at
an offset takes a count of bytes that fits after the offset and leaves exactly the rest; and
every limit above a third of the length reads alike, so the nesting level never passes it. -/
theorem reading_stays_in_bounds :
    (∀ (limit level : Nat) (data : Bytes) (v : Value) (r : {r : Bytes // r.length < data.length}),
      readValue limit level data = .ok (v, r) → r.1.length + 3 ≤ data.length) ∧
    (∀ (data : Bytes) (f : Frame data), Frame.split data = .ok f →
      ∃ ds, LengthDigits ds f.payload.length ∧
        data = ds ++ 58 :: (f.payload ++ f.tagByte :: f.rest)) ∧
    (∀ (ds : Bytes) (n : Nat), LengthDigits ds n →
      n < 1000000000 ∧ ∀ k < ds.length, digitsValue (ds.take k) * 10 + 9 < 1000000000) ∧
    (∀ (data : Bytes) (declared available : Nat),
      Frame.split data = .error (.outOfBounds declared available) ↔
        ∃ ds body, LengthDigits ds declared ∧ data = ds ++ 58 :: body ∧
          available = body.length ∧ body.length ≤ declared) ∧
    (∀ (data : Bytes) (start k : Nat) (v : Value), readAt data start = .ok (v, k) →
      3 ≤ k ∧ start + k ≤ data.length ∧
        readPrefix defaultDepth (data.drop start) = .ok (v, data.drop (start + k))) ∧
    (∀ (data : Bytes) (m m' : Nat), data.length / 3 < m → data.length / 3 < m' →
      readPrefix m data = readPrefix m' data) :=
  ⟨fun _ _ _ _ _ h => three_le_consumed h, fun _ _ h => eq_of_split h,
    fun _ _ hd => ⟨digitsValue_lt hd, fun _ hk => partial_digitsValue_lt hd hk⟩,
    fun _ _ _ => split_eq_outOfBounds_iff, fun _ _ _ _ h => readAt_eq_ok h,
    fun _ _ _ hm hm' => readPrefix_congr_limit hm hm'⟩

/-- Three nested lists read at offset 0 take all nine bytes, and read alike under the largest
64-bit limit and under 4; the frame `5:ab` declares more bytes than follow its colon. -/
theorem reading_bounds_nested_lists :
    readAt [54, 58, 51, 58, 48, 58, 93, 93, 93] 0 = .ok (.list [.list [.list []]], 9) ∧
      readPrefix 18446744073709551615 [54, 58, 51, 58, 48, 58, 93, 93, 93] =
        readPrefix 4 [54, 58, 51, 58, 48, 58, 93, 93, 93] ∧
      Frame.split [53, 58, 97, 98] = .error (.outOfBounds 5 2) := by
  have hd0 : LengthDigits [48] 0 := lengthDigits_singleton (by decide)
  have hd3 : LengthDigits [51] 3 := lengthDigits_singleton (by decide)
  have hd5 : LengthDigits [53] 5 := lengthDigits_singleton (by decide)
  have hd6 : LengthDigits [54] 6 := lengthDigits_singleton (by decide)
  have henc : Encodes defaultDepth 1 [54, 58, 51, 58, 48, 58, 93, 93, 93]
      (.list [.list [.list []]]) :=
    .list (by decide) hd6
      (.cons (.list (by decide) hd3 (.cons (.list (by decide) hd0 .nil) .nil)) .nil)
  have hread :
      readAt [54, 58, 51, 58, 48, 58, 93, 93, 93] 0 = .ok (.list [.list [.list []]], 9) := by
    rw [readAt, if_neg (by decide)]
    simp only [List.drop_zero]
    rw [← List.append_nil [54, 58, 51, 58, 48, 58, 93, 93, 93], readPrefix_of_encodes henc []]
    rfl
  obtain ⟨-, -, -, hbounds, -, hlimit⟩ := reading_stays_in_bounds
  exact ⟨hread, hlimit _ _ _ (by decide) (by decide),
    (hbounds _ _ _).2 ⟨[53], [97, 98], hd5, rfl, rfl, by decide⟩⟩

end HandlerKit.Tnetstring
