import HandlerKit.Proofs.Tnetstring.Payload

/-!
# The TNetstring grammar

`Encodes limit level e v` says that the bytes `e` are one TNetstring frame standing for the
value `v`, at nesting `level` under the nesting `limit`:

* a frame is a length prefix of one to nine digits, a colon, a payload of that many bytes, and
  a tag byte;
* a scalar frame's payload is read by `Scalar`;
* a list frame's payload is a concatenation of item frames one level deeper;
* a dict frame's payload is a concatenation of key and value frames one level deeper, the keys
  strings, the dict built by inserting the pairs in order so that a later key wins;
* every frame sits at a level within the limit.

**Theorem (`readPrefix_eq_ok_iff`).** `readPrefix limit d` answers `v` and the rest `r` exactly
when `d` is a frame for `v` at level 1 followed by `r`.

Cutting a frame is described once (`split_lengthDigits`): after a length prefix and a colon, a
frame comes off exactly when a byte follows the declared payload, and otherwise the length is
past the end; a split that gets that far started with a prefix and a colon
(`exists_lengthDigits_of_split`).

Completeness (`readValue_of_encodes`) is an induction on the derivation: the length prefix fixes
where each frame ends, so the item and entry loops cut a payload exactly where the derivation
does. Soundness (`encodes_of_readValue`) follows the reader's own recursion, on the bytes
left. Since the reader is a function, frames are prefix-free (`encodes_append_inj`).
-/

namespace HandlerKit

theorem Tag.eq_byte_of_ofByte? {b : UInt8} {t : Tag} (h : Tag.ofByte? b = some t) : b = t.byte := by
  unfold Tag.ofByte? at h
  repeat' split at h
  all_goals cases h <;> assumption

namespace Tnetstring

/-! ## Frames -/

/-- A length prefix: one to nine ASCII digits, leading zeros allowed, whose value is `n`. -/
def LengthDigits (ds : Bytes) (n : Nat) : Prop :=
  ds ≠ [] ∧ ds.length ≤ maxLengthDigits ∧ (∀ b ∈ ds, isDigit b) ∧ digitsValue ds = n

/-- A single digit is a length prefix. -/
theorem lengthDigits_singleton {d : UInt8} (h : isDigit d = true) : LengthDigits [d] (digitsValue [d]) :=
  ⟨List.cons_ne_nil _ _, by simp [maxLengthDigits], by simpa only [List.mem_singleton, forall_eq] using h, rfl⟩

theorem colon_not_digit : isDigit 58 = false := by decide

/-- A split that gets past the colon, to a frame or to a length past the end, starts with a
length prefix and a colon. -/
theorem exists_lengthDigits_of_split {data : Bytes} {x : Except Error (Frame data)}
    (h : Frame.split data = x) (hx : ∀ e, x ≠ .error (.malformed e)) :
    ∃ ds body, LengthDigits ds (digitsValue ds) ∧ data = ds ++ 58 :: body := by
  unfold Frame.split at h
  split at h
  · exact absurd h.symm (hx _)
  dsimp only at h
  split at h
  · exact absurd h.symm (hx _)
  split at h
  · exact absurd h.symm (hx _)
  rename_i hne hlen
  split at h
  · exact absurd h.symm (hx _)
  rename_i c body hd
  split at h
  · exact absurd h.symm (hx _)
  rename_i hc
  have hc' : c = 58 := Classical.not_not.1 hc
  subst hc'
  refine ⟨data.takeWhile isDigit, body, ⟨fun e => hne (by rw [e]; rfl), Nat.not_lt.1 hlen,
    fun b hb => List.all_eq_true.1 List.all_takeWhile b hb, rfl⟩, ?_⟩
  rw [← hd, List.prefix_iff_eq_append.1 (List.takeWhile_prefix isDigit)]

/-- After a length prefix and a colon, a frame is split off exactly when a byte follows the
declared payload, and a length past the end is reported with the bytes after the colon. -/
theorem split_lengthDigits {ds : Bytes} {n : Nat} (hd : LengthDigits ds n) (body : Bytes) :
    (Frame.split (ds ++ 58 :: body)).map (fun f => (f.payload, f.tagByte, f.rest)) =
      match body.drop n with
      | [] => .error (.outOfBounds n body.length)
      | t :: rest => .ok (body.take n, t, rest) := by
  obtain ⟨hne, hlen, hdig, rfl⟩ := hd
  have htw : (ds ++ 58 :: body).takeWhile isDigit = ds := by
    rw [List.takeWhile_append_of_pos hdig, List.takeWhile_cons_of_neg (by decide),
      List.append_nil]
  unfold Frame.split
  rw [if_neg (by simp)]
  dsimp only
  simp only [htw]
  rw [if_neg (by simpa using hne), if_neg (Nat.not_lt.2 hlen)]
  split
  · rename_i heq
    rw [htw] at heq
    simp at heq
  · rename_i c body' heq
    rw [htw, List.drop_left] at heq
    obtain ⟨rfl, rfl⟩ := List.cons.inj heq
    rw [if_neg (by decide)]
    split
    · rename_i heq'
      rw [htw] at heq'
      simp only [heq']
      rfl
    · rename_i t rest heq'
      rw [htw] at heq'
      simp only [heq']
      rfl

/-- A frame that splits off comes from a length prefix, a colon, the payload, the tag byte
and the rest. -/
theorem eq_of_split {data : Bytes} {f : Frame data} (h : Frame.split data = .ok f) :
    ∃ ds, LengthDigits ds f.payload.length ∧
      data = ds ++ 58 :: (f.payload ++ f.tagByte :: f.rest) := by
  obtain ⟨ds, body, hd, rfl⟩ := exists_lengthDigits_of_split h nofun
  have hmap := split_lengthDigits hd body
  rw [h] at hmap
  cases hdrop : body.drop (digitsValue ds) with
  | nil => rw [hdrop] at hmap; cases hmap
  | cons t rest =>
    rw [hdrop] at hmap
    obtain ⟨hp, htr⟩ := Prod.mk.inj (Except.ok.inj hmap)
    obtain ⟨ht, hr⟩ := Prod.mk.inj htr
    -- a byte follows the payload, so the whole declared length was there
    have hlt : digitsValue ds < body.length := by
      have := congrArg List.length hdrop
      simp only [List.length_drop, List.length_cons] at this
      omega
    refine ⟨ds, ?_, ?_⟩
    · rw [hp, List.length_take, Nat.min_eq_left (Nat.le_of_lt hlt)]
      exact hd
    · rw [hp, ht, hr, ← hdrop, List.take_append_drop]

/-- A length prefix, a colon, a payload of that length and a tag byte split off as a frame,
whatever follows. -/
theorem split_append {ds p : Bytes} {t : UInt8} (r : Bytes) (hd : LengthDigits ds p.length) :
    ∃ f, Frame.split (ds ++ 58 :: (p ++ t :: r)) = .ok f ∧
      f.payload = p ∧ f.tagByte = t ∧ f.rest = r := by
  have hmap := split_lengthDigits hd (p ++ t :: r)
  rw [List.drop_left, List.take_left] at hmap
  cases hs : Frame.split (ds ++ 58 :: (p ++ t :: r)) with
  | error e => rw [hs] at hmap; cases hmap
  | ok f =>
    rw [hs] at hmap
    obtain ⟨hp, htr⟩ := Prod.mk.inj (Except.ok.inj hmap)
    obtain ⟨ht, hr⟩ := Prod.mk.inj htr
    exact ⟨f, rfl, hp, ht, hr⟩

/-! ## The grammar -/

mutual
/-- The bytes `e` are one frame standing for `v`, read at nesting `level` under the nesting
`limit`. -/
inductive Encodes (limit : Nat) : Nat → Bytes → Value → Prop
  | scalar {level : Nat} {ds p : Bytes} {tag : Tag} {v : Value} (hl : level ≤ limit)
      (hd : LengthDigits ds p.length) (hp : Scalar tag p v) :
      Encodes limit level (ds ++ 58 :: (p ++ [tag.byte])) v
  | list {level : Nat} {ds p : Bytes} {vs : List Value} (hl : level ≤ limit)
      (hd : LengthDigits ds p.length) (hp : EncodesItems limit (level + 1) p vs) :
      Encodes limit level (ds ++ 58 :: (p ++ [Tag.list.byte])) (.list vs)
  | dict {level : Nat} {ds p : Bytes} {kvs : List (Bytes × Value)} (hl : level ≤ limit)
      (hd : LengthDigits ds p.length) (hp : EncodesEntries limit (level + 1) p kvs) :
      Encodes limit level (ds ++ 58 :: (p ++ [Tag.dict.byte])) (.dict (Value.entriesOfPairs kvs))

/-- The payload of a list: item frames one after another. -/
inductive EncodesItems (limit : Nat) : Nat → Bytes → List Value → Prop
  | nil {level : Nat} : EncodesItems limit level [] []
  | cons {level : Nat} {e p : Bytes} {v : Value} {vs : List Value}
      (he : Encodes limit level e v) (hp : EncodesItems limit level p vs) :
      EncodesItems limit level (e ++ p) (v :: vs)

/-- The payload of a dict: a string key frame and a value frame, pair after pair. -/
inductive EncodesEntries (limit : Nat) : Nat → Bytes → List (Bytes × Value) → Prop
  | nil {level : Nat} : EncodesEntries limit level [] []
  | cons {level : Nat} {a b p : Bytes} {k : Bytes} {v : Value} {kvs : List (Bytes × Value)}
      (ha : Encodes limit level a (.str k)) (hb : Encodes limit level b v)
      (hp : EncodesEntries limit level p kvs) :
      EncodesEntries limit level (a ++ b ++ p) ((k, v) :: kvs)
end

variable {limit : Nat}

theorem encodes_ne_nil {level : Nat} {e : Bytes} {v : Value} (h : Encodes limit level e v) :
    e ≠ [] := by
  cases h <;> simp

/-- The entries a dict loop builds from pairs inserted onto `acc`. -/
def insertAll (acc : List (Bytes × Value)) (kvs : List (Bytes × Value)) : List (Bytes × Value) :=
  kvs.foldl (fun acc kv => Value.insertEntry kv.1 kv.2 acc) acc

/-! ## Completeness: every frame is read -/

/-- One turn of the item loop: an item read off a payload not yet used up is kept. -/
theorem readItems_step {level : Nat} {d rest : Bytes} {acc : List Value} {v : Value}
    {h : rest.length < d.length} (hd : d ≠ []) (hv : readValue limit level d = .ok (v, ⟨rest, h⟩)) :
    readItems limit level d acc = readItems limit level rest (v :: acc) := by
  cases d with
  | nil => exact absurd rfl hd
  | cons b bs => rw [readItems, hv]

/-- One turn of the entry loop: a string key, then a value, read off a payload not yet used
up, are inserted. -/
theorem readEntries_step {level : Nat} {d rest rest' k : Bytes} {acc : List (Bytes × Value)}
    {v : Value} {h : rest.length < d.length} {h' : rest'.length < rest.length} (hd : d ≠ [])
    (hr : rest ≠ []) (hk : readValue limit level d = .ok (.str k, ⟨rest, h⟩))
    (hv : readValue limit level rest = .ok (v, ⟨rest', h'⟩)) :
    readEntries limit level d acc = readEntries limit level rest' (Value.insertEntry k v acc) := by
  cases d with
  | nil => exact absurd rfl hd
  | cons b bs =>
    cases rest with
    | nil => exact absurd rfl hr
    | cons c cs => rw [readEntries, hk]; dsimp only; rw [hv]

theorem frame_append (ds p : Bytes) (b : UInt8) (r : Bytes) :
    ds ++ 58 :: (p ++ [b]) ++ r = ds ++ 58 :: (p ++ b :: r) := by
  simp

mutual
/-- A frame is read whatever follows it. -/
theorem readValue_of_encodes {level : Nat} {e : Bytes} {v : Value} :
    Encodes limit level e v → ∀ r, ∃ hr, readValue limit level (e ++ r) = .ok (v, ⟨r, hr⟩)
  | @Encodes.scalar _ _ _ _ tag _ hl hd hp, r => by
    rw [frame_append]
    obtain ⟨⟨len, payload, t, rest, hpl, hrl⟩, hf, hp', ht, hr⟩ := split_append (t := tag.byte) r hd
    dsimp only at hp' ht hr
    subst hp' ht hr
    refine ⟨hrl, ?_⟩
    rw [readValue, if_neg (Nat.not_lt.2 hl), hf]
    dsimp only
    rw [Tag.ofByte?_byte]
    split
    · rename_i heq
      cases heq
    · rename_i heq
      cases heq
      cases hp
    · rename_i heq
      cases heq
      cases hp
    · rename_i tag' hnd hnl heq
      cases heq
      rw [(readScalar_eq_ok_iff hnd hnl).2 hp]
  | .list hl hd hp, r => by
    have hitems := readItems_of_encodes hp []
    rw [frame_append]
    obtain ⟨⟨len, payload, t, rest, hpl, hrl⟩, hf, hp', ht, hr⟩ :=
      split_append (t := Tag.list.byte) r hd
    dsimp only at hp' ht hr
    subst hp' ht hr
    refine ⟨hrl, ?_⟩
    rw [readValue, if_neg (Nat.not_lt.2 hl), hf]
    dsimp only
    rw [Tag.ofByte?_byte]
    dsimp only
    rw [hitems]
    rfl
  | .dict hl hd hp, r => by
    have hentries := readEntries_of_encodes hp []
    rw [frame_append]
    obtain ⟨⟨len, payload, t, rest, hpl, hrl⟩, hf, hp', ht, hr⟩ :=
      split_append (t := Tag.dict.byte) r hd
    dsimp only at hp' ht hr
    subst hp' ht hr
    refine ⟨hrl, ?_⟩
    rw [readValue, if_neg (Nat.not_lt.2 hl), hf]
    dsimp only
    rw [Tag.ofByte?_byte]
    dsimp only
    rw [hentries]
    rfl

/-- The item loop cuts a list payload exactly at its frames. -/
theorem readItems_of_encodes {level : Nat} {p : Bytes} {vs : List Value} :
    EncodesItems limit level p vs → ∀ acc, readItems limit level p acc = .ok (acc.reverse ++ vs)
  | .nil, acc => by simp [readItems]
  | .cons (p := p) (v := v) he hp, acc => by
    obtain ⟨hr, hv⟩ := readValue_of_encodes he p
    have ih := readItems_of_encodes hp (v :: acc)
    rw [readItems_step (List.append_ne_nil_of_left_ne_nil (encodes_ne_nil he) p) hv, ih]
    simp

/-- The entry loop cuts a dict payload exactly at its frames and inserts the pairs in order. -/
theorem readEntries_of_encodes {level : Nat} {p : Bytes} {kvs : List (Bytes × Value)} :
    EncodesEntries limit level p kvs → ∀ acc, readEntries limit level p acc = .ok (insertAll acc kvs)
  | .nil, acc => by simp [readEntries, insertAll]
  | .cons (b := b) (p := p) (k := k) (v := v) ha hb hp, acc => by
    obtain ⟨hr, hk⟩ := readValue_of_encodes ha (b ++ p)
    obtain ⟨hr', hv⟩ := readValue_of_encodes hb p
    have ih := readEntries_of_encodes hp (Value.insertEntry k v acc)
    have hbp : b ++ p ≠ [] := List.append_ne_nil_of_left_ne_nil (encodes_ne_nil hb) p
    rw [List.append_assoc, readEntries_step
      (List.append_ne_nil_of_left_ne_nil (encodes_ne_nil ha) _) hbp hk hv, ih]
    rfl
end

/-! ## Soundness: what is read is a frame -/

mutual
/-- What the reader answers is a frame for the value it gives, followed by the rest. -/
theorem encodes_of_readValue {level : Nat} {data : Bytes} {v : Value}
    {r : {r : Bytes // r.length < data.length}} (h : readValue limit level data = .ok (v, r)) :
    ∃ e, data = e ++ r.1 ∧ Encodes limit level e v := by
  rw [readValue] at h
  split at h
  · cases h
  · rename_i hl
    split at h
    · cases h
    · rename_i f hf
      obtain ⟨ds, hds, hdata⟩ := eq_of_split hf
      -- the payload is shorter than the input: the loops below recurse on it
      have hshorter := f.payload_lt
      have hframe : data = ds ++ 58 :: (f.payload ++ [f.tagByte]) ++ f.rest := by
        rw [frame_append]
        exact hdata
      split at h
      · cases h
      · rename_i htag
        split at h
        · cases h
        · rename_i es hes
          obtain ⟨rfl, rfl⟩ := Prod.mk.inj (Except.ok.inj h)
          obtain ⟨kvs, hkvs, rfl⟩ := encodesEntries_of_readEntries hes
          rw [Tag.eq_byte_of_ofByte? htag] at hframe
          exact ⟨_, hframe, .dict (Nat.not_lt.1 hl) hds hkvs⟩
      · rename_i htag
        split at h
        · cases h
        · rename_i xs hxs
          obtain ⟨rfl, rfl⟩ := Prod.mk.inj (Except.ok.inj h)
          obtain ⟨vs, hvs, rfl⟩ := encodesItems_of_readItems hxs
          rw [Tag.eq_byte_of_ofByte? htag] at hframe
          exact ⟨_, hframe, by simpa using Encodes.list (Nat.not_lt.1 hl) hds hvs⟩
      · rename_i tag hnd hnl htag
        split at h
        · cases h
        · rename_i w hw
          obtain ⟨rfl, rfl⟩ := Prod.mk.inj (Except.ok.inj h)
          rw [Tag.eq_byte_of_ofByte? htag] at hframe
          exact ⟨_, hframe, .scalar (Nat.not_lt.1 hl) hds ((readScalar_eq_ok_iff hnd hnl).1 hw)⟩
termination_by 2 * data.length
decreasing_by all_goals omega

/-- The item loop reads item frames one after another, after the items it was given. -/
theorem encodesItems_of_readItems {level : Nat} {payload : Bytes} {acc xs : List Value}
    (h : readItems limit level payload acc = .ok xs) :
    ∃ vs, EncodesItems limit level payload vs ∧ xs = acc.reverse ++ vs := by
  cases payload with
  | nil =>
    rw [readItems] at h
    exact ⟨[], .nil, by simpa using (Except.ok.inj h).symm⟩
  | cons b bs =>
    rw [readItems] at h
    split at h
    · cases h
    · rename_i v rest hrest hv
      obtain ⟨e, he, hev⟩ := encodes_of_readValue hv
      obtain ⟨vs, hvs, rfl⟩ := encodesItems_of_readItems h
      refine ⟨v :: vs, ?_, by simp⟩
      rw [he]
      exact .cons hev hvs
termination_by 2 * payload.length + 1
decreasing_by all_goals subst_vars; omega

/-- The entry loop reads key and value frames pair after pair, inserting them onto the
entries it was given. -/
theorem encodesEntries_of_readEntries {level : Nat} {payload : Bytes}
    {acc es : List (Bytes × Value)} (h : readEntries limit level payload acc = .ok es) :
    ∃ kvs, EncodesEntries limit level payload kvs ∧ es = insertAll acc kvs := by
  cases payload with
  | nil =>
    rw [readEntries] at h
    exact ⟨[], .nil, (Except.ok.inj h).symm⟩
  | cons b bs =>
    rw [readEntries] at h
    split at h
    · cases h
    · rename_i k rest hrest hk
      split at h
      · cases h
      · rename_i c cs hcs
        split at h
        · cases h
        · rename_i v rest' hrest' hv
          obtain ⟨a, ha, hak⟩ := encodes_of_readValue hk
          obtain ⟨e, he, hev⟩ := encodes_of_readValue hv
          obtain ⟨kvs, hkvs, rfl⟩ := encodesEntries_of_readEntries h
          refine ⟨(k, v) :: kvs, ?_, rfl⟩
          dsimp only at ha he
          rw [ha, he, ← List.append_assoc]
          exact .cons hak hev hkvs
    · cases h
termination_by 2 * payload.length + 1
decreasing_by all_goals subst_vars; omega
end

/-! ## Reading a prefix -/

/-- A frame followed by anything is read as its value and the bytes after it. -/
theorem readValue_map_of_encodes {level : Nat} {e : Bytes} {v : Value} (h : Encodes limit level e v)
    (r : Bytes) : (readValue limit level (e ++ r)).map (fun x => (x.1, x.2.1)) = .ok (v, r) := by
  obtain ⟨hr, hv⟩ := readValue_of_encodes h r
  rw [hv]
  rfl

/-- Frames are prefix-free: bytes start with at most one frame, standing for one value. -/
theorem encodes_append_inj {level : Nat} {e e' r r' : Bytes} {v v' : Value}
    (h : Encodes limit level e v) (h' : Encodes limit level e' v') (heq : e ++ r = e' ++ r') :
    e = e' ∧ v = v' ∧ r = r' := by
  have hread := readValue_map_of_encodes h r
  rw [heq, readValue_map_of_encodes h'] at hread
  obtain ⟨rfl, rfl⟩ := Prod.mk.inj (Except.ok.inj hread)
  exact ⟨List.append_cancel_right heq, rfl, rfl⟩

/-- A frame followed by anything is read off as a prefix. -/
theorem readPrefix_of_encodes {e : Bytes} {v : Value} (h : Encodes limit 1 e v) (r : Bytes) :
    readPrefix limit (e ++ r) = .ok (v, r) :=
  readValue_map_of_encodes h r

/-- What is read off as a prefix is a frame for the value read, followed by the rest. -/
theorem encodes_of_readPrefix {data rest : Bytes} {v : Value}
    (h : readPrefix limit data = .ok (v, rest)) : ∃ e, data = e ++ rest ∧ Encodes limit 1 e v := by
  unfold readPrefix at h
  cases hr : readValue limit 1 data with
  | error err =>
    rw [hr] at h
    cases h
  | ok res =>
    rw [hr] at h
    obtain ⟨w, r⟩ := res
    obtain ⟨rfl, rfl⟩ := Prod.mk.inj (Except.ok.inj h)
    exact encodes_of_readValue hr

/-- Reading a prefix accepts exactly the grammar: `readPrefix limit d` answers the value `v`
and the rest `r` exactly when `d` is a frame for `v` at level 1 under `limit`, followed by
`r`. -/
theorem readPrefix_eq_ok_iff {data rest : Bytes} {v : Value} :
    readPrefix limit data = .ok (v, rest) ↔ ∃ e, data = e ++ rest ∧ Encodes limit 1 e v := by
  constructor
  · exact encodes_of_readPrefix
  · rintro ⟨e, rfl, he⟩
    exact readPrefix_of_encodes he rest

end Tnetstring

end HandlerKit
