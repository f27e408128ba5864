import HandlerKit.Proofs.Tnetstring.Grammar
import HandlerKit.Proofs.Tokens
import HandlerKit.Proofs.Depth

/-!
# The TNetstring nesting limit

The reader checks the nesting level of every frame before anything else: the top frame is at
level 1, and the items of a list and the keys and values of a dict are one level deeper. A
frame read at `level` under the limit `limit` therefore stands for a value with
`level + v.depth ≤ limit + 1` (`Encodes.depth_le`), and raising the limit changes nothing that
was read (`Encodes.mono`).

Lowering the limit is another matter. A dict keeps only the last value of a repeated key, so a
discarded value may nest deeper than anything the dict keeps, and the reader trips over it
although the dict is shallow enough. Where no dict frame repeats a key (`KeysDistinct`, a
property of the bytes alone) the value's depth is the deepest level the frames reach: under
any limit the frame is read as before when its value is shallow enough (`Encodes.relimit`),
and it is `tooDeep` otherwise (`Encodes.tooDeep`), since every frame before the first one past
the limit is read as before and a key never sits deeper than its value.

**Theorem (`readPrefix_depth_limit`).** For limits `m ≤ m'`: what is read under `m` is read
alike under `m'` and is at most `m` deep; and what is read under `m'` from bytes whose dict
frames repeat no key is read alike under `m` when it is at most `m` deep, and is `tooDeep m`
otherwise.
-/

namespace HandlerKit.Tnetstring

variable {limit limit' : Nat}

/-! ## Raising the limit -/

theorem Scalar.depth_eq {tag : Tag} {p : Bytes} {v : Value} (h : Scalar tag p v) : v.depth = 1 := by
  cases h <;> rfl

mutual
theorem Encodes.mono {level : Nat} {e : Bytes} {v : Value} (hle : limit ≤ limit') :
    Encodes limit level e v → Encodes limit' level e v
  | .scalar hl hd hp => .scalar (Nat.le_trans hl hle) hd hp
  | .list hl hd hp => .list (Nat.le_trans hl hle) hd (EncodesItems.mono hle hp)
  | .dict hl hd hp => .dict (Nat.le_trans hl hle) hd (EncodesEntries.mono hle hp)

theorem EncodesItems.mono {level : Nat} {p : Bytes} {vs : List Value} (hle : limit ≤ limit') :
    EncodesItems limit level p vs → EncodesItems limit' level p vs
  | .nil => .nil
  | .cons he hp => .cons (Encodes.mono hle he) (EncodesItems.mono hle hp)

theorem EncodesEntries.mono {level : Nat} {p : Bytes} {kvs : List (Bytes × Value)}
    (hle : limit ≤ limit') : EncodesEntries limit level p kvs → EncodesEntries limit' level p kvs
  | .nil => .nil
  | .cons ha hb hp => .cons (Encodes.mono hle ha) (Encodes.mono hle hb) (EncodesEntries.mono hle hp)
end

mutual
/-- A frame read at `level` stands for a value at most `limit + 1 - level` deep. -/
theorem Encodes.depth_le {level : Nat} {e : Bytes} {v : Value} :
    Encodes limit level e v → level + v.depth ≤ limit + 1
  | .scalar hl _ hp => by rw [hp.depth_eq]; omega
  | .list hl _ hp => by
    have hmem := EncodesItems.depth_le hp
    have hitems : Value.itemsDepth _ ≤ limit - level :=
      Value.itemsDepth_le_iff.2 fun x hx => by have := hmem x hx; omega
    rw [Value.depth_list]
    omega
  | .dict hl _ hp => by
    -- a dict keeps only values it was given, and each of those sits one level deeper
    have hmem := EncodesEntries.depth_le hp
    have hentries : Value.entriesDepth _ ≤ limit - level :=
      Value.entriesDepth_le_iff.2 fun e he => by
        have := hmem e (Value.mem_of_mem_entriesOfPairs he)
        omega
    rw [Value.depth_dict]
    omega

theorem EncodesItems.depth_le {level : Nat} {p : Bytes} {vs : List Value} :
    EncodesItems limit level p vs → ∀ x ∈ vs, level + x.depth ≤ limit + 1
  | .nil, _, hx => nomatch hx
  | .cons he hp, x, hx => by
    have hhead := Encodes.depth_le he
    have htail := EncodesItems.depth_le hp
    rcases List.mem_cons.1 hx with rfl | hx
    · exact hhead
    · exact htail x hx

theorem EncodesEntries.depth_le {level : Nat} {p : Bytes} {kvs : List (Bytes × Value)} :
    EncodesEntries limit level p kvs → ∀ kv ∈ kvs, level + kv.2.depth ≤ limit + 1
  | .nil, _, hkv => nomatch hkv
  | .cons _ hb hp, kv, hkv => by
    have hhead := Encodes.depth_le hb
    have htail := EncodesEntries.depth_le hp
    rcases List.mem_cons.1 hkv with rfl | hkv
    · exact hhead
    · exact htail kv hkv
end

/-! ## Dict frames without a repeated key -/

mutual
/-- No dict frame in the frame `e` repeats a key. This is read off the bytes alone: a frame is
a length prefix, a colon, that many payload bytes and a tag byte, and a dict payload is a
string key frame and a value frame, pair after pair. -/
inductive KeysDistinct : Bytes → Prop
  | scalar {ds p : Bytes} {t : UInt8} (hd : LengthDigits ds p.length) (hl : t ≠ Tag.list.byte)
      (hdict : t ≠ Tag.dict.byte) : KeysDistinct (ds ++ 58 :: (p ++ [t]))
  | list {ds p : Bytes} (hd : LengthDigits ds p.length) (hp : ItemsKeysDistinct p) :
      KeysDistinct (ds ++ 58 :: (p ++ [Tag.list.byte]))
  | dict {ds p : Bytes} {ks : List Bytes} (hd : LengthDigits ds p.length) (hp : EntriesKeys p ks)
      (hk : ks.Nodup) : KeysDistinct (ds ++ 58 :: (p ++ [Tag.dict.byte]))

/-- A list payload whose frames repeat no key inside. -/
inductive ItemsKeysDistinct : Bytes → Prop
  | nil : ItemsKeysDistinct []
  | cons {e p : Bytes} (he : KeysDistinct e) (hp : ItemsKeysDistinct p) :
      ItemsKeysDistinct (e ++ p)

/-- A dict payload with the keys `ks`, in order, whose value frames repeat no key inside. -/
inductive EntriesKeys : Bytes → List Bytes → Prop
  | nil : EntriesKeys [] []
  | cons {ds k b p : Bytes} {ks : List Bytes} (hd : LengthDigits ds k.length)
      (hb : KeysDistinct b) (hp : EntriesKeys p ks) :
      EntriesKeys (ds ++ 58 :: (k ++ [Tag.string.byte]) ++ b ++ p) (k :: ks)
end

/-! ### Frames are self-delimiting -/

/-- A length prefix, a colon, a payload of that length and a tag byte end where they say. -/
theorem frame_append_inj {ds p ds' p' r r' : Bytes} {t t' : UInt8}
    (hd : LengthDigits ds p.length) (hd' : LengthDigits ds' p'.length)
    (h : ds ++ 58 :: (p ++ t :: r) = ds' ++ 58 :: (p' ++ t' :: r')) :
    ds = ds' ∧ p = p' ∧ t = t' ∧ r = r' := by
  have hcolon : ∀ {ds : Bytes} {n : Nat}, LengthDigits ds n → (58 : UInt8) ∉ ds :=
    fun hd hmem => by simpa [colon_not_digit] using hd.2.2.1 _ hmem
  obtain ⟨rfl, hrest⟩ := append_cons_inj_of_not_mem (hcolon hd) (hcolon hd') h
  have hlen : p.length = p'.length := hd.2.2.2.symm.trans hd'.2.2.2
  obtain ⟨rfl, htail⟩ := List.append_inj hrest hlen
  obtain ⟨rfl, rfl⟩ := List.cons.inj htail
  exact ⟨rfl, rfl, rfl, rfl⟩

/-- Bytes that are one frame. -/
def IsFrame (e : Bytes) : Prop :=
  ∃ ds p t, LengthDigits ds p.length ∧ e = ds ++ 58 :: (p ++ [t])

theorem Encodes.isFrame {level : Nat} {e : Bytes} {v : Value} (h : Encodes limit level e v) :
    IsFrame e := by
  cases h with
  | scalar _ hd _ => exact ⟨_, _, _, hd, rfl⟩
  | list _ hd _ => exact ⟨_, _, _, hd, rfl⟩
  | dict _ hd _ => exact ⟨_, _, _, hd, rfl⟩

theorem KeysDistinct.isFrame {e : Bytes} (h : KeysDistinct e) : IsFrame e := by
  cases h with
  | scalar hd _ _ => exact ⟨_, _, _, hd, rfl⟩
  | list hd _ => exact ⟨_, _, _, hd, rfl⟩
  | dict hd _ _ => exact ⟨_, _, _, hd, rfl⟩

/-- Two frames that start the same bytes are the same frame. -/
theorem IsFrame.append_inj {e e' p p' : Bytes} (he : IsFrame e) (he' : IsFrame e')
    (h : e ++ p = e' ++ p') : e = e' ∧ p = p' := by
  obtain ⟨ds, q, t, hd, rfl⟩ := he
  obtain ⟨ds', q', t', hd', rfl⟩ := he'
  simp only [List.append_assoc, List.cons_append] at h
  obtain ⟨rfl, rfl, rfl, rfl⟩ := frame_append_inj hd hd' h
  exact ⟨rfl, rfl⟩

/-- A string frame standing for the key `k` has `k` as its payload. -/
theorem Encodes.eq_of_str {level : Nat} {a k : Bytes} (h : Encodes limit level a (.str k)) :
    ∃ ds, LengthDigits ds k.length ∧ a = ds ++ 58 :: (k ++ [Tag.string.byte]) := by
  cases h with
  | scalar _ hd hp =>
    cases hp with
    | string => exact ⟨_, hd, rfl⟩

/-- A key frame repeats no key. -/
theorem KeysDistinct.key {ds k : Bytes} (hd : LengthDigits ds k.length) :
    KeysDistinct (ds ++ 58 :: (k ++ [Tag.string.byte])) :=
  .scalar hd (by decide) (by decide)

/-! ### What a frame without repeated keys holds -/

theorem KeysDistinct.list_payload {ds p : Bytes} (hd : LengthDigits ds p.length)
    (h : KeysDistinct (ds ++ 58 :: (p ++ [Tag.list.byte]))) : ItemsKeysDistinct p := by
  generalize he : ds ++ 58 :: (p ++ [Tag.list.byte]) = e at h
  cases h with
  | scalar hd' hl _ =>
    obtain ⟨-, -, rfl, -⟩ := frame_append_inj hd hd' he
    exact absurd rfl hl
  | list hd' hp =>
    obtain ⟨-, rfl, -⟩ := frame_append_inj hd hd' he
    exact hp
  | dict hd' _ _ =>
    obtain ⟨-, -, ht, -⟩ := frame_append_inj hd hd' he
    cases ht

theorem KeysDistinct.dict_payload {ds p : Bytes} (hd : LengthDigits ds p.length)
    (h : KeysDistinct (ds ++ 58 :: (p ++ [Tag.dict.byte]))) : ∃ ks, EntriesKeys p ks ∧ ks.Nodup := by
  generalize he : ds ++ 58 :: (p ++ [Tag.dict.byte]) = e at h
  cases h with
  | scalar hd' _ hdict =>
    obtain ⟨-, -, rfl, -⟩ := frame_append_inj hd hd' he
    exact absurd rfl hdict
  | list hd' _ =>
    obtain ⟨-, -, ht, -⟩ := frame_append_inj hd hd' he
    cases ht
  | dict hd' hp hk =>
    obtain ⟨-, rfl, -⟩ := frame_append_inj hd hd' he
    exact ⟨_, hp, hk⟩

/-- The first item frame of a list payload and the frames after it. -/
theorem ItemsKeysDistinct.cons_inv {e p : Bytes} (he : IsFrame e) (h : ItemsKeysDistinct (e ++ p)) :
    KeysDistinct e ∧ ItemsKeysDistinct p := by
  generalize hb : e ++ p = b at h
  cases h with
  | nil =>
    obtain ⟨_, _, _, _, rfl⟩ := he
    simp at hb
  | cons he' hp' =>
    obtain ⟨rfl, rfl⟩ := he.append_inj he'.isFrame hb
    exact ⟨he', hp'⟩

/-- The first pair of a dict payload and the pairs after it. -/
theorem EntriesKeys.cons_inv {a b p : Bytes} {ks : List Bytes} {k : Bytes} {level : Nat}
    (ha : Encodes limit level a (.str k)) (hb : IsFrame b) (h : EntriesKeys (a ++ b ++ p) ks) :
    ∃ ks', ks = k :: ks' ∧ KeysDistinct b ∧ EntriesKeys p ks' := by
  obtain ⟨ds, hd, rfl⟩ := ha.eq_of_str
  generalize hx : ds ++ 58 :: (k ++ [Tag.string.byte]) ++ b ++ p = x at h
  cases h with
  | nil => simp at hx
  | @cons ds' k' b' p' ks' hd' hb' hp' =>
    have hx' : (ds ++ 58 :: (k ++ [Tag.string.byte])) ++ (b ++ p) =
        (ds' ++ 58 :: (k' ++ [Tag.string.byte])) ++ (b' ++ p') := by
      simpa only [List.append_assoc] using hx
    obtain ⟨hkey, hrest⟩ := IsFrame.append_inj ⟨_, _, _, hd, rfl⟩ ⟨_, _, _, hd', rfl⟩ hx'
    obtain ⟨-, rfl, -⟩ := frame_append_inj hd hd' hkey
    obtain ⟨rfl, rfl⟩ := hb.append_inj hb'.isFrame hrest
    exact ⟨_, rfl, hb', hp'⟩

/-- An empty dict payload lists no key. -/
theorem EntriesKeys.nil_inv {ks : List Bytes} (h : EntriesKeys [] ks) : ks = [] := by
  generalize hx : ([] : Bytes) = x at h
  cases h with
  | nil => rfl
  | cons => simp at hx

/-- The keys a dict payload lists are the keys of the pairs it is read as. -/
theorem EncodesEntries.keys_eq {level : Nat} {p : Bytes} {kvs : List (Bytes × Value)} :
    ∀ {ks : List Bytes}, EncodesEntries limit level p kvs → EntriesKeys p ks →
      ks = kvs.map Prod.fst := by
  induction kvs generalizing p with
  | nil =>
    intro ks h hk
    cases h
    exact hk.nil_inv
  | cons kv kvs ih =>
    intro ks h hk
    cases h with
    | cons ha hb hp =>
      obtain ⟨ks', rfl, -, hk'⟩ := hk.cons_inv ha hb.isFrame
      rw [ih hp hk']
      rfl


/-! ## Reading past the limit -/

section Reading

variable {level : Nat} {d : Bytes} {err : Error}

/-- A frame past the limit is `tooDeep`, whatever its bytes. -/
theorem readValue_of_lt (h : limit < level) : readValue limit level d = .error (.tooDeep limit) := by
  rw [readValue, if_pos h]

theorem readValue_list_of_error {ds p : Bytes} (r : Bytes) (hl : level ≤ limit)
    (hd : LengthDigits ds p.length) (h : readItems limit (level + 1) p [] = .error err) :
    readValue limit level (ds ++ 58 :: (p ++ Tag.list.byte :: r)) = .error err := by
  obtain ⟨⟨len, payload, t, rest, hpl, hrl⟩, hf, hp, ht, hr⟩ := split_append (t := Tag.list.byte) r hd
  dsimp only at hp ht hr
  subst hp ht hr
  rw [readValue, if_neg (Nat.not_lt.2 hl), hf]
  dsimp only
  rw [Tag.ofByte?_byte]
  dsimp only
  rw [h]

theorem readValue_dict_of_error {ds p : Bytes} (r : Bytes) (hl : level ≤ limit)
    (hd : LengthDigits ds p.length) (h : readEntries limit (level + 1) p [] = .error err) :
    readValue limit level (ds ++ 58 :: (p ++ Tag.dict.byte :: r)) = .error err := by
  obtain ⟨⟨len, payload, t, rest, hpl, hrl⟩, hf, hp, ht, hr⟩ := split_append (t := Tag.dict.byte) r hd
  dsimp only at hp ht hr
  subst hp ht hr
  rw [readValue, if_neg (Nat.not_lt.2 hl), hf]
  dsimp only
  rw [Tag.ofByte?_byte]
  dsimp only
  rw [h]

theorem readItems_of_error {acc : List Value} (hd : d ≠ []) (h : readValue limit level d = .error err) :
    readItems limit level d acc = .error err := by
  cases d with
  | nil => exact absurd rfl hd
  | cons b bs => rw [readItems, h]

theorem readEntries_of_key_error {acc : List (Bytes × Value)} (hd : d ≠ [])
    (h : readValue limit level d = .error err) : readEntries limit level d acc = .error err := by
  cases d with
  | nil => exact absurd rfl hd
  | cons b bs => rw [readEntries, h]

theorem readEntries_of_value_error {acc : List (Bytes × Value)} {rest k : Bytes}
    {h : rest.length < d.length} (hd : d ≠ []) (hr : rest ≠ [])
    (hk : readValue limit level d = .ok (.str k, ⟨rest, h⟩))
    (hv : readValue limit level rest = .error err) : readEntries limit level d acc = .error err := by
  cases d with
  | nil => exact absurd rfl hd
  | cons b bs =>
    cases rest with
    | nil => exact absurd rfl hr
    | cons c cs => rw [readEntries, hk]; dsimp only; rw [hv]

end Reading

/-! ## Lowering the limit -/

mutual
/-- Where no dict frame repeats a key, a frame is read under any limit its value's depth
allows. -/
theorem Encodes.relimit {level : Nat} {e : Bytes} {v : Value} :
    Encodes limit level e v → KeysDistinct e → level + v.depth ≤ limit' + 1 →
      Encodes limit' level e v
  | .scalar _ hd hp, _, hdep => .scalar (by rw [hp.depth_eq] at hdep; omega) hd hp
  | .list _ hd hp, hk, hdep => by
    have hitems := EncodesItems.relimit hp (hk.list_payload hd)
    rw [Value.depth_list] at hdep
    refine .list (by omega) hd (hitems fun x hx => ?_)
    have := Value.itemsDepth_le_iff.1 (Nat.le_refl _) x hx
    omega
  | .dict _ hd hp, hk, hdep => by
    obtain ⟨ks, hks, hnd⟩ := hk.dict_payload hd
    have hentries := EncodesEntries.relimit hp hks
    -- with no key repeated, every pair's value is a member of the dict
    rw [EncodesEntries.keys_eq hp hks] at hnd
    rw [Value.depth_dict] at hdep
    refine .dict (by omega) hd (hentries fun kv hkv => ?_)
    have := Value.entriesDepth_le_iff.1 (Nat.le_refl _) kv
      (Value.mem_entriesOfPairs_of_nodup hnd hkv)
    omega

theorem EncodesItems.relimit {level : Nat} {p : Bytes} {vs : List Value} :
    EncodesItems limit level p vs → ItemsKeysDistinct p →
      (∀ x ∈ vs, level + x.depth ≤ limit' + 1) → EncodesItems limit' level p vs
  | .nil, _, _ => .nil
  | .cons he hp, hk, hdep => by
    obtain ⟨hke, hkp⟩ := hk.cons_inv he.isFrame
    have hhead := Encodes.relimit he hke
    have htail := EncodesItems.relimit hp hkp
    exact .cons (hhead (hdep _ List.mem_cons_self))
      (htail fun x hx => hdep x (List.mem_cons_of_mem _ hx))

theorem EncodesEntries.relimit {level : Nat} {p : Bytes} {kvs : List (Bytes × Value)}
    {ks : List Bytes} :
    EncodesEntries limit level p kvs → EntriesKeys p ks →
      (∀ kv ∈ kvs, level + kv.2.depth ≤ limit' + 1) → EncodesEntries limit' level p kvs
  | .nil, _, _ => .nil
  | .cons (a := a) (v := v) ha hb hp, hk, hdep => by
    obtain ⟨_, -, hkb, hkp⟩ := hk.cons_inv ha hb.isFrame
    have hka : KeysDistinct a := by
      obtain ⟨ds, hd, rfl⟩ := ha.eq_of_str
      exact .key hd
    have hkey := Encodes.relimit ha hka
    have hval := Encodes.relimit hb hkb
    have htail := EncodesEntries.relimit hp hkp
    have hv := hdep _ List.mem_cons_self
    -- the key is one level deep, no deeper than the value after it
    have hone := Value.one_le_depth v
    refine .cons (hkey ?_) (hval hv) (htail fun kv hkv => hdep kv (List.mem_cons_of_mem _ hkv))
    simp only [Value.depth] at hv ⊢
    omega
end

mutual
/-- Where no dict frame repeats a key, a frame whose value is deeper than a limit allows is
`tooDeep` under that limit, whatever follows it. -/
theorem Encodes.tooDeep {level : Nat} {e : Bytes} {v : Value} :
    Encodes limit level e v → KeysDistinct e → limit' + 1 < level + v.depth →
      ∀ r, readValue limit' level (e ++ r) = .error (.tooDeep limit')
  | .scalar _ _ hp, _, hdep, _ => readValue_of_lt (by rw [hp.depth_eq] at hdep; omega)
  | @Encodes.list _ _ _ _ vs _ hd hp, hk, hdep, r => by
    have hitems := EncodesItems.tooDeep hp (hk.list_payload hd)
    by_cases hl : limit' < level
    · exact readValue_of_lt hl
    rw [Value.depth_list] at hdep
    -- some item is deeper than the level below allows
    obtain ⟨x, hx, hxd⟩ := Value.lt_itemsDepth_iff.1 (show limit' - level < Value.itemsDepth vs by omega)
    rw [frame_append]
    exact readValue_list_of_error r (Nat.not_lt.1 hl) hd (hitems ⟨x, hx, by omega⟩ [])
  | @Encodes.dict _ _ _ _ kvs _ hd hp, hk, hdep, r => by
    obtain ⟨ks, hks, -⟩ := hk.dict_payload hd
    have hentries := EncodesEntries.tooDeep hp hks
    by_cases hl : limit' < level
    · exact readValue_of_lt hl
    rw [Value.depth_dict] at hdep
    -- the dict keeps only values it was given, so a pair's value is that deep
    obtain ⟨kv, hkv, hkvd⟩ :=
      Value.lt_entriesDepth_iff.1 (show limit' - level < Value.entriesDepth (Value.entriesOfPairs kvs) by omega)
    rw [frame_append]
    exact readValue_dict_of_error r (Nat.not_lt.1 hl) hd
      (hentries ⟨kv, Value.mem_of_mem_entriesOfPairs hkv, by omega⟩ [])

theorem EncodesItems.tooDeep {level : Nat} {p : Bytes} {vs : List Value} :
    EncodesItems limit level p vs → ItemsKeysDistinct p →
      (∃ x ∈ vs, limit' + 1 < level + x.depth) →
        ∀ acc, readItems limit' level p acc = .error (.tooDeep limit')
  | .nil, _, ⟨_, hx, _⟩, _ => nomatch hx
  | .cons (e := e) (p := q) (v := v) he hp, hk, hdeep, acc => by
    obtain ⟨hke, hkp⟩ := hk.cons_inv he.isFrame
    have hhead := Encodes.tooDeep he hke
    have htail := EncodesItems.tooDeep hp hkp
    have hne : e ++ q ≠ [] := List.append_ne_nil_of_left_ne_nil (encodes_ne_nil he) q
    by_cases hv : limit' + 1 < level + v.depth
    · exact readItems_of_error hne (hhead hv q)
    -- the first item is read as before, and a later one is too deep
    have hread' : Encodes limit' level e v := Encodes.relimit he hke (by omega)
    obtain ⟨_, hread⟩ := readValue_of_encodes hread' q
    rw [readItems_step hne hread]
    obtain ⟨x, hx, hxd⟩ := hdeep
    rcases List.mem_cons.1 hx with rfl | hx
    · exact absurd hxd hv
    · exact htail ⟨x, hx, hxd⟩ _

theorem EncodesEntries.tooDeep {level : Nat} {p : Bytes} {kvs : List (Bytes × Value)}
    {ks : List Bytes} :
    EncodesEntries limit level p kvs → EntriesKeys p ks →
      (∃ kv ∈ kvs, limit' + 1 < level + kv.2.depth) →
        ∀ acc, readEntries limit' level p acc = .error (.tooDeep limit')
  | .nil, _, ⟨_, hkv, _⟩, _ => nomatch hkv
  | .cons (a := a) (b := b) (p := q) (k := k) (v := v) ha hb hp, hk, hdeep, acc => by
    obtain ⟨_, -, hkb, hkp⟩ := hk.cons_inv ha hb.isFrame
    have hka : KeysDistinct a := by
      obtain ⟨ds, hd, rfl⟩ := ha.eq_of_str
      exact .key hd
    have hval := Encodes.tooDeep hb hkb
    have htail := EncodesEntries.tooDeep hp hkp
    have hne : a ++ (b ++ q) ≠ [] := List.append_ne_nil_of_left_ne_nil (encodes_ne_nil ha) _
    have hbq : b ++ q ≠ [] := List.append_ne_nil_of_left_ne_nil (encodes_ne_nil hb) q
    rw [List.append_assoc]
    by_cases hl : limit' < level
    · exact readEntries_of_key_error hne (readValue_of_lt hl)
    -- the key is read as before: it is one level deep
    have hkey' : Encodes limit' level a (.str k) :=
      Encodes.relimit ha hka (by simp only [Value.depth]; omega)
    obtain ⟨_, hkey⟩ := readValue_of_encodes hkey' (b ++ q)
    by_cases hv : limit' + 1 < level + v.depth
    · exact readEntries_of_value_error hne hbq hkey (hval hv q)
    -- so is the value, and a later pair is too deep
    have hread' : Encodes limit' level b v := Encodes.relimit hb hkb (by omega)
    obtain ⟨_, hread⟩ := readValue_of_encodes hread' q
    rw [readEntries_step hne hbq hkey hread]
    obtain ⟨kv, hkv, hkvd⟩ := hdeep
    rcases List.mem_cons.1 hkv with rfl | hkv
    · exact absurd hkvd hv
    · exact htail ⟨kv, hkv, hkvd⟩ _
end

/-! ## The limit is monotone and measures depth -/

/-- For limits `m ≤ m'`: a value read under `m` is read alike under `m'` and is at most `m`
deep; and a value read under `m'` from bytes whose dict frames repeat no key is read alike
under `m` when it is at most `m` deep, and is `tooDeep m` otherwise. -/
theorem readPrefix_depth_limit {m m' : Nat} (hm : m ≤ m') {d r : Bytes} {v : Value} :
    (readPrefix m d = .ok (v, r) → readPrefix m' d = .ok (v, r) ∧ v.depth ≤ m) ∧
    (readPrefix m' d = .ok (v, r) → (∃ e, d = e ++ r ∧ KeysDistinct e) →
      readPrefix m d = if v.depth ≤ m then .ok (v, r) else .error (.tooDeep m)) := by
  refine ⟨fun h => ?_, fun h ⟨e, hde, hk⟩ => ?_⟩
  · obtain ⟨e, rfl, he⟩ := encodes_of_readPrefix h
    have hdepth := he.depth_le
    exact ⟨readPrefix_of_encodes (he.mono hm) r, by omega⟩
  · obtain ⟨e', hde', he⟩ := encodes_of_readPrefix h
    obtain rfl : e' = e := List.append_cancel_right (hde'.symm.trans hde)
    subst hde
    split
    · exact readPrefix_of_encodes (he.relimit hk (by omega)) r
    · rw [readPrefix, he.tooDeep hk (by omega) r]
      rfl

/-- Three nested lists, as the reader's own tests check: read under the limit 3 and alike
under 4, and `tooDeep` under 2. -/
theorem nested_lists_depth_limit :
    readPrefix 3 [54, 58, 51, 58, 48, 58, 93, 93, 93] = .ok (.list [.list [.list []]], []) ∧
      readPrefix 4 [54, 58, 51, 58, 48, 58, 93, 93, 93] = .ok (.list [.list [.list []]], []) ∧
      readPrefix 2 [54, 58, 51, 58, 48, 58, 93, 93, 93] = .error (.tooDeep 2) := by
  have hd0 : LengthDigits [48] 0 := lengthDigits_singleton (by decide)
  have hd3 : LengthDigits [51] 3 := lengthDigits_singleton (by decide)
  have hd6 : LengthDigits [54] 6 := lengthDigits_singleton (by decide)
  have henc : Encodes 3 1 [54, 58, 51, 58, 48, 58, 93, 93, 93] (.list [.list [.list []]]) :=
    .list (by decide) hd6 (.cons (.list (by decide) hd3 (.cons (.list (by decide) hd0 .nil) .nil)) .nil)
  have hkeys : KeysDistinct [54, 58, 51, 58, 48, 58, 93, 93, 93] :=
    .list hd6 (.cons (.list hd3 (.cons (.list hd0 .nil) .nil)) .nil)
  have hread : readPrefix 3 [54, 58, 51, 58, 48, 58, 93, 93, 93] = .ok (.list [.list [.list []]], []) :=
    readPrefix_of_encodes henc []
  refine ⟨hread, ((readPrefix_depth_limit (show 3 ≤ 4 by decide)).1 hread).1, ?_⟩
  rw [(readPrefix_depth_limit (show 2 ≤ 3 by decide)).2 hread ⟨_, rfl, hkeys⟩, if_neg (by decide)]

end HandlerKit.Tnetstring
