import HandlerKit.Proofs.Tnetstring.Grammar
import HandlerKit.Proofs.Json.Sound
import HandlerKit.Proofs.Json.Faults
import HandlerKit.Proofs.Depth
import HandlerKit.Json.Tree
import HandlerKit.Value.Edit
import Mathlib.Data.Finset.Card

/-!
# Dicts keep their keys sorted

A dict is a list of entries, and nothing in its type keeps the keys in order. Every way of
getting a value keeps them in order all the same: each dict of the value, at any depth, has its
keys strictly ascending in bytewise order (`Value.Sorted`), so no key stands twice.

**Insertion.** Every dict is built by `insertEntry`, which keeps ascending keys ascending
(`keysAscend_insertEntry`). After an insertion a lookup finds the value inserted under its key
and the old value under every other key (`lookupEntry_insertEntry`), and the keys are the old
ones and the new one (`mem_keys_insertEntry`); since ascending keys are distinct, the number of
entries is the number of distinct keys (`length_eq_card_keys`).

**Producers** (`sorted_readPrefix`, `sorted_parse`, `sorted_ofTree`). The TNetstring reader
builds a dict by inserting its pairs in order, and the JSON reader and a document read back
insert members one after another. Empty values, scalars, and the conversions from items or from
pairs give sorted values too.

**Edits** (`Value.edit`). Storing under a key and appending an item keep a value sorted. A run
of edits never changes the kind of the value, so either every `set` reaches the dict or none
does: on a dict a lookup finds the value of the last `set` of its key, else the old value
(`get?_foldl_edit_dict`); on any other value it finds nothing. The count of entries is the
number of distinct keys, old or set (`length_foldl_edit_dict`). An edit of the wrong kind is a
mismatch naming the kind found, and leaves the value as it was.

**Writing** (`render_dict`). Compact JSON text writes the members of an object, joined by
commas, in the order of its entries: for a sorted dict, in ascending order of their keys.

**Theorem (`dicts_stay_sorted`)** gathers these facts.
-/

namespace HandlerKit

namespace Value

/-! ## Sorted values -/

/-- Every dict of a value, at any depth, has strictly ascending keys. -/
inductive Sorted : Value → Prop
  | str (b : Bytes) : Sorted (.str b)
  | int (n : Int64) : Sorted (.int n)
  | float (x : Binary64) : Sorted (.float x)
  | bool (b : Bool) : Sorted (.bool b)
  | null : Sorted .null
  | dict {es : List (Bytes × Value)} (hk : KeysAscend es) (hv : ∀ e ∈ es, Sorted e.2) :
      Sorted (.dict es)
  | list {xs : List Value} (hx : ∀ x ∈ xs, Sorted x) : Sorted (.list xs)

theorem Sorted.of_representable {v : Value} (h : Representable v) : v.Sorted := by
  induction h with
  | str _ => exact .str _
  | int n => exact .int n
  | float _ => exact .float _
  | bool b => exact .bool b
  | null => exact .null
  | dict hk _ _ ih => exact .dict hk ih
  | list _ ih => exact .list ih

/-- A value that is neither a dict nor a list has no dict to keep sorted. -/
theorem sorted_of_scalar {v : Value} (hd : v.tag ≠ .dict) (hl : v.tag ≠ .list) : v.Sorted := by
  cases v
  case str b => exact .str b
  case int n => exact .int n
  case float x => exact .float x
  case bool b => exact .bool b
  case null => exact .null
  case dict => exact absurd rfl hd
  case list => exact absurd rfl hl

theorem sorted_empty (t : Tag) : (empty t).Sorted := by
  cases t
  case string => exact .str []
  case integer => exact .int 0
  case float => exact .float Binary64.zero
  case boolean => exact .bool false
  case null => exact .null
  case dict => exact .dict List.Pairwise.nil fun _ h => absurd h List.not_mem_nil
  case list => exact .list fun _ h => absurd h List.not_mem_nil

theorem Sorted.items {xs : List Value} (h : (Value.list xs).Sorted) : ∀ x ∈ xs, x.Sorted := by
  cases h with
  | list hx => exact hx

theorem Sorted.cons {x : Value} {xs : List Value} (h : (Value.list xs).Sorted) (hx : x.Sorted) :
    (Value.list (x :: xs)).Sorted :=
  .list fun y hy => (List.mem_cons.1 hy).elim (fun h => h ▸ hx) (h.items y)

/-- Inserting pairs one after another into ascending entries keeps them ascending. -/
theorem keysAscend_foldl_insertEntry {ps : List (Bytes × Value)} :
    ∀ {acc : List (Bytes × Value)}, KeysAscend acc →
      KeysAscend (ps.foldl (fun acc p => insertEntry p.1 p.2 acc) acc) := by
  induction ps with
  | nil => exact fun h => h
  | cons p ps ih => exact fun h => ih (keysAscend_insertEntry h)

/-- A dict built from pairs with sorted values is sorted. -/
theorem sorted_entriesOfPairs {ps : List (Bytes × Value)} (h : ∀ p ∈ ps, p.2.Sorted) :
    (dict (entriesOfPairs ps)).Sorted :=
  .dict (keysAscend_foldl_insertEntry List.Pairwise.nil)
    fun e he => h e (mem_of_mem_entriesOfPairs he)

theorem sorted_insertEntry {es : List (Bytes × Value)} {k : Bytes} {x : Value}
    (h : (dict es).Sorted) (hx : x.Sorted) : (dict (insertEntry k x es)).Sorted := by
  cases h with
  | dict hk hv =>
    refine .dict (keysAscend_insertEntry hk) fun e he => ?_
    rcases mem_insertEntry he with rfl | he
    · exact hx
    · exact hv e he

/-! ## Lookups and keys after an insertion -/

/-- After an insertion, a lookup of the key inserted finds its value, and a lookup of any other
key finds what it found before. -/
theorem lookupEntry_insertEntry (k k' : Bytes) (x : Value) (es : List (Bytes × Value)) :
    lookupEntry k (insertEntry k' x es) = if k = k' then some x else lookupEntry k es := by
  induction es with
  | nil => rfl
  | cons e es ih =>
    obtain ⟨k'', x''⟩ := e
    rw [insertEntry]
    split
    · rfl
    · -- the entry of an equal key is replaced
      rename_i heq
      rw [← Bytes.eq_of_compare_eq heq]
      by_cases hk : k = k'
      · rw [lookupEntry, if_pos hk, if_pos hk]
      · rw [lookupEntry, if_neg hk, if_neg hk, lookupEntry, if_neg hk]
    · rename_i hgt
      rw [lookupEntry, ih, lookupEntry]
      by_cases hk : k = k''
      · -- the key inserted is above this one, so it is another key
        have hne : k ≠ k' := by
          rintro rfl
          rw [hk, Bytes.compare_self] at hgt
          cases hgt
        rw [if_pos hk, if_neg hne, if_pos hk]
      · rw [if_neg hk, if_neg hk]

/-- The keys after an insertion are the key inserted and the keys before. -/
theorem mem_keys_insertEntry {k k' : Bytes} {x : Value} {es : List (Bytes × Value)} :
    k ∈ (insertEntry k' x es).map Prod.fst ↔ k = k' ∨ k ∈ es.map Prod.fst := by
  simp only [List.mem_map]
  constructor
  · rintro ⟨e, he, rfl⟩
    rcases mem_insertEntry he with rfl | he
    · exact .inl rfl
    · exact .inr ⟨e, he, rfl⟩
  · rintro (rfl | ⟨e, he, rfl⟩)
    · exact ⟨_, mem_insertEntry_self k x es, rfl⟩
    · by_cases hk : e.1 = k'
      · exact ⟨_, mem_insertEntry_self k' x es, hk.symm⟩
      · exact ⟨e, mem_insertEntry_of_ne hk he, rfl⟩

theorem toFinset_keys_insertEntry (k : Bytes) (x : Value) (es : List (Bytes × Value)) :
    ((insertEntry k x es).map Prod.fst).toFinset = insert k (es.map Prod.fst).toFinset := by
  ext k'
  simp only [List.mem_toFinset, Finset.mem_insert, mem_keys_insertEntry]

/-- Ascending keys are distinct, so there are as many entries as distinct keys. -/
theorem length_eq_card_keys {es : List (Bytes × Value)} (h : KeysAscend es) :
    es.length = (es.map Prod.fst).toFinset.card := by
  have hnd : (es.map Prod.fst).Nodup := by
    refine List.pairwise_map.2 (h.imp fun hab heq => ?_)
    rw [heq, Bytes.compare_self] at hab
    cases hab
  rw [List.toFinset_card_of_nodup hnd, List.length_map]

/-! ## Edits -/

/-- The value an edit stores. -/
def Edit.stored : Edit → Value
  | .set _ x => x
  | .append x => x

/-- The key an edit stores under: that of a `set`. -/
def Edit.key? : Edit → Option Bytes
  | .set k _ => some k
  | .append _ => none

/-- The value an edit stores under `k`: that of a `set` of `k`. -/
def Edit.storedUnder (k : Bytes) : Edit → Option Value
  | .set k' x => if k' = k then some x else none
  | .append _ => none

theorem get?_dict (es : List (Bytes × Value)) (k : Bytes) : (dict es).get? k = lookupEntry k es :=
  rfl

theorem get?_of_tag_ne {v : Value} (hv : v.tag ≠ .dict) (k : Bytes) : v.get? k = none := by
  cases v
  case dict => exact absurd rfl hv
  all_goals rfl

/-- Storing under a key of a value that is not a dict is a mismatch naming the kind found. -/
theorem dictSet_of_tag_ne {v : Value} (hv : v.tag ≠ .dict) (k : Bytes) (x : Value) :
    v.dictSet k x = .error (.typeMismatch Tag.dict.name v.tag) := by
  cases v
  case dict => exact absurd rfl hv
  all_goals rfl

/-- Appending to a value that is not a list is a mismatch naming the kind found. -/
theorem listAppend_of_tag_ne {v : Value} (hv : v.tag ≠ .list) (x : Value) :
    v.listAppend x = .error (.typeMismatch Tag.list.name v.tag) := by
  cases v
  case list => exact absurd rfl hv
  all_goals rfl

theorem edit_of_apply_error {v : Value} {e : Edit} {err : Error} (h : e.apply v = .error err) :
    v.edit e = v := by
  rw [edit, h]

theorem edit_set_dict (es : List (Bytes × Value)) (k : Bytes) (x : Value) :
    (dict es).edit (.set k x) = dict (insertEntry k x es) := rfl

theorem edit_append_dict (es : List (Bytes × Value)) (x : Value) :
    (dict es).edit (.append x) = dict es := rfl

theorem edit_append_list (xs : List Value) (x : Value) :
    (list xs).edit (.append x) = list (xs ++ [x]) := rfl

theorem edit_set_list (xs : List Value) (k : Bytes) (x : Value) :
    (list xs).edit (.set k x) = list xs := rfl

/-- An edit of a value that is neither a dict nor a list leaves it. -/
theorem edit_of_scalar {v : Value} (hd : v.tag ≠ .dict) (hl : v.tag ≠ .list) (e : Edit) :
    v.edit e = v := by
  cases e with
  | set k x => exact edit_of_apply_error (dictSet_of_tag_ne hd k x)
  | append x => exact edit_of_apply_error (listAppend_of_tag_ne hl x)

theorem tag_edit (v : Value) (e : Edit) : (v.edit e).tag = v.tag := by
  cases v <;> cases e <;> rfl

theorem sorted_edit {v : Value} {e : Edit} (hv : v.Sorted) (he : e.stored.Sorted) :
    (v.edit e).Sorted := by
  cases v
  case dict es =>
    cases e with
    | set k x => exact sorted_insertEntry hv he
    | append x => exact hv
  case list xs =>
    cases e with
    | set k x => exact hv
    | append x =>
      rw [edit_append_list]
      exact .list fun y hy => (List.mem_append.1 hy).elim (hv.items y)
        fun h => (List.mem_singleton.1 h) ▸ he
  -- an edit of a scalar is refused
  all_goals cases e <;> exact hv

/-! ## Runs of edits -/

section Runs

variable (es : List Edit)

/-- A run of edits keeps the kind of a value. -/
theorem tag_foldl_edit : ∀ v : Value, (es.foldl edit v).tag = v.tag := by
  induction es with
  | nil => exact fun v => rfl
  | cons e es ih => exact fun v => by rw [List.foldl_cons, ih, tag_edit]

theorem sorted_foldl_edit (hes : ∀ e ∈ es, e.stored.Sorted) :
    ∀ {v : Value}, v.Sorted → (es.foldl edit v).Sorted := by
  induction es with
  | nil => exact fun hv => hv
  | cons e es ih =>
    exact fun hv => ih (fun e' he' => hes e' (List.mem_cons_of_mem e he'))
      (sorted_edit hv (hes e List.mem_cons_self))

theorem getLast?_filterMap_cons {α β : Type} (f : α → Option β) (a : α) (l : List α) :
    ((a :: l).filterMap f).getLast? = ((l.filterMap f).getLast?).or (f a) := by
  rw [List.filterMap_cons]
  cases f a with
  | none => rw [Option.or_none]
  | some b =>
    rw [List.getLast?_cons]
    cases (l.filterMap f).getLast? <;> rfl

/-- On a dict, a lookup after a run of edits finds the value of the last `set` of the key, and
the old value when no edit set it. -/
theorem get?_foldl_edit_dict (k : Bytes) :
    ∀ ds : List (Bytes × Value), (es.foldl edit (dict ds)).get? k =
      ((es.filterMap (Edit.storedUnder k)).getLast?).or (lookupEntry k ds) := by
  induction es with
  | nil => exact fun ds => rfl
  | cons e es ih =>
    intro ds
    rw [getLast?_filterMap_cons, Option.or_assoc, List.foldl_cons]
    cases e with
    | set k' x =>
      rw [edit_set_dict, ih, lookupEntry_insertEntry]
      by_cases hk : k = k'
      · rw [if_pos hk, Edit.storedUnder, if_pos hk.symm, Option.some_or]
      · rw [if_neg hk, Edit.storedUnder, if_neg (Ne.symm hk), Option.none_or]
    | append x => rw [edit_append_dict, ih, Edit.storedUnder, Option.none_or]

/-- On any other value every `set` is refused, and a lookup finds nothing. -/
theorem get?_foldl_edit_of_tag_ne {v : Value} (hv : v.tag ≠ .dict) (k : Bytes) :
    (es.foldl edit v).get? k = none :=
  get?_of_tag_ne (by rw [tag_foldl_edit]; exact hv) k

/-- A run of edits on a dict of ascending keys gives a dict of ascending keys, holding the old
keys and those set. -/
theorem foldl_edit_dict :
    ∀ {ds : List (Bytes × Value)}, KeysAscend ds → ∃ ds', es.foldl edit (dict ds) = dict ds' ∧
      KeysAscend ds' ∧
      (ds'.map Prod.fst).toFinset = (ds.map Prod.fst ++ es.filterMap Edit.key?).toFinset := by
  induction es with
  | nil => exact fun hds => ⟨_, rfl, hds, by rw [List.filterMap_nil, List.append_nil]⟩
  | cons e es ih =>
    intro ds hds
    cases e with
    | set k x =>
      obtain ⟨ds', hrun, hasc, hkeys⟩ := ih (keysAscend_insertEntry (k := k) (v := x) hds)
      refine ⟨ds', hrun, hasc, ?_⟩
      -- the key set now is among the old keys
      rw [hkeys, List.filterMap_cons, Edit.key?, List.toFinset_append, List.toFinset_append,
        toFinset_keys_insertEntry, List.toFinset_cons, Finset.insert_union, Finset.union_insert]
    | append x =>
      obtain ⟨ds', hrun, hasc, hkeys⟩ := ih hds
      exact ⟨ds', hrun, hasc, by rw [hkeys, List.filterMap_cons]; rfl⟩

/-- On a dict of ascending keys, the count of entries after a run of edits is the number of
distinct keys, old or set. -/
theorem length_foldl_edit_dict {ds : List (Bytes × Value)} (hds : KeysAscend ds) :
    (es.foldl edit (dict ds)).asEntries.map List.length =
      some ((ds.map Prod.fst ++ es.filterMap Edit.key?).toFinset.card) := by
  obtain ⟨ds', hrun, hasc, hkeys⟩ := foldl_edit_dict es hds
  rw [hrun, asEntries, Option.map_some, length_eq_card_keys hasc, hkeys]

end Runs

end Value

/-! ## Producers -/

namespace Tnetstring

open Value (Sorted)

variable {limit : Nat}

theorem Scalar.sorted {tag : Tag} {p : Bytes} {v : Value} (h : Scalar tag p v) : v.Sorted := by
  cases h
  case string => exact .str _
  case integer => exact .int _
  case float => exact .float _
  case true => exact .bool _
  case false => exact .bool _
  case null => exact .null

mutual
/-- A frame stands for a sorted value: a dict frame inserts its pairs in order. -/
theorem Encodes.sorted {level : Nat} {e : Bytes} {v : Value} :
    Encodes limit level e v → v.Sorted
  | .scalar _ _ hp => hp.sorted
  | .list _ _ hp => .list (EncodesItems.sorted hp)
  | .dict _ _ hp => Value.sorted_entriesOfPairs (EncodesEntries.sorted hp)

theorem EncodesItems.sorted {level : Nat} {p : Bytes} {vs : List Value} :
    EncodesItems limit level p vs → ∀ x ∈ vs, x.Sorted
  | .nil => fun _ hx => absurd hx List.not_mem_nil
  | .cons he hp => fun x hx =>
    (List.mem_cons.1 hx).elim (fun h => h ▸ Encodes.sorted he) (EncodesItems.sorted hp x)

theorem EncodesEntries.sorted {level : Nat} {p : Bytes} {kvs : List (Bytes × Value)} :
    EncodesEntries limit level p kvs → ∀ kv ∈ kvs, kv.2.Sorted
  | .nil => fun _ hkv => absurd hkv List.not_mem_nil
  | .cons _ hb hp => fun kv hkv =>
    (List.mem_cons.1 hkv).elim (fun h => h ▸ Encodes.sorted hb) (EncodesEntries.sorted hp kv)
end

/-- A value read off as a TNetstring prefix is sorted. -/
theorem sorted_readPrefix {data rest : Bytes} {v : Value} (h : readPrefix limit data = .ok (v, rest)) :
    v.Sorted := by
  obtain ⟨e, -, he⟩ := readPrefix_eq_ok_iff.1 h
  exact he.sorted

end Tnetstring

namespace Json

open Value (Sorted)

/-- A value parsed from JSON text is sorted. -/
theorem sorted_parse {limit : Nat} {s : String} {v : Value} (h : parse limit (Bytes.ofString s) = .ok v) :
    v.Sorted :=
  Sorted.of_representable (representable_of_parse (Utf8.isValid_ofString s) h)

/-- Induction over documents where an array or object may use the hypothesis for each of its
members. -/
theorem Tree.induction_mem {motive : Tree → Prop} (null : motive .null)
    (bool : ∀ b, motive (.bool b)) (number : ∀ n, motive (.number n))
    (string : ∀ s, motive (.string s)) (array : ∀ ts, (∀ t ∈ ts, motive t) → motive (.array ts))
    (object : ∀ ms, (∀ m ∈ ms, motive m.2) → motive (.object ms)) (t : Tree) : motive t :=
  match t with
  | .null => null
  | .bool b => bool b
  | .number n => number n
  | .string s => string s
  | .array ts => array ts fun t _ => induction_mem null bool number string array object t
  | .object ms => object ms fun m _ => induction_mem null bool number string array object m.2
termination_by sizeOf t
decreasing_by
  · rename_i ht
    have := List.sizeOf_lt_of_mem ht
    simp only [Tree.array.sizeOf_spec]
    omega
  · -- a member's document is smaller than the member, which is smaller than the members
    rename_i hm
    obtain ⟨k, d⟩ := m
    have := List.sizeOf_lt_of_mem hm
    simp only [Prod.mk.sizeOf_spec] at this
    simp only [Tree.object.sizeOf_spec]
    omega

theorem sorted_numberOf {n : Number} {v : Value} (h : numberOf n = .ok v) : v.Sorted := by
  cases n with
  | whole k =>
    rw [numberOf] at h
    split at h
    · cases h
      exact .int _
    · cases h
  | negative k =>
    cases h
    exact .int _
  | float x =>
    cases h
    exact .float x

theorem sorted_valuesOf {ts : List Tree} (h : ∀ t ∈ ts, ∀ v, valueOf t = .ok v → v.Sorted) :
    ∀ {xs : List Value}, valuesOf ts = .ok xs → (Value.list xs).Sorted := by
  induction ts with
  | nil =>
    intro xs hxs
    cases hxs
    exact .list fun _ hx => absurd hx List.not_mem_nil
  | cons t ts ih =>
    intro xs hxs
    rw [valuesOf] at hxs
    cases hv : valueOf t with
    | error f =>
      rw [hv] at hxs
      cases hxs
    | ok v =>
      rw [hv] at hxs
      cases hvs : valuesOf ts with
      | error f =>
        rw [hvs] at hxs
        cases hxs
      | ok vs =>
        rw [hvs] at hxs
        cases hxs
        exact (ih (fun t' ht' => h t' (List.mem_cons_of_mem t ht')) hvs).cons
          (h t List.mem_cons_self v hv)

theorem sorted_entriesOf {ms : List (String × Tree)}
    (h : ∀ m ∈ ms, ∀ v, valueOf m.2 = .ok v → v.Sorted) :
    ∀ {acc es : List (Bytes × Value)}, (Value.dict acc).Sorted → entriesOf ms acc = .ok es →
      (Value.dict es).Sorted := by
  induction ms with
  | nil =>
    intro acc es hacc hes
    cases hes
    exact hacc
  | cons m ms ih =>
    intro acc es hacc hes
    obtain ⟨k, t⟩ := m
    rw [entriesOf] at hes
    cases hv : valueOf t with
    | error f =>
      rw [hv] at hes
      cases hes
    | ok v =>
      rw [hv] at hes
      exact ih (fun m' hm' => h m' (List.mem_cons_of_mem _ hm'))
        (Value.sorted_insertEntry hacc (h (k, t) List.mem_cons_self v hv)) hes

/-- A value read back from a document in memory is sorted. -/
theorem sorted_valueOf (t : Tree) : ∀ {v : Value}, valueOf t = .ok v → v.Sorted := by
  induction t using Tree.induction_mem with
  | null => intro v h; cases h; exact .null
  | bool b => intro v h; cases h; exact .bool b
  | number n => intro v h; exact sorted_numberOf h
  | string s => intro v h; cases h; exact .str _
  | array ts ih =>
    intro v h
    rw [valueOf] at h
    cases hxs : valuesOf ts with
    | error f =>
      rw [hxs] at h
      cases h
    | ok xs =>
      rw [hxs] at h
      cases h
      exact sorted_valuesOf (fun t ht _ => ih t ht) hxs
  | object ms ih =>
    intro v h
    rw [valueOf] at h
    cases hes : entriesOf ms [] with
    | error f =>
      rw [hes] at h
      cases h
    | ok es =>
      rw [hes] at h
      cases h
      exact sorted_entriesOf (fun m hm _ => ih m hm)
        (.dict List.Pairwise.nil fun _ he => absurd he List.not_mem_nil) hes

theorem sorted_ofTree {t : Tree} {v : Value} (h : ofTree t = .ok v) : v.Sorted :=
  sorted_valueOf t (mapError_eq_ok.1 h)

/-! ## Writing objects -/

/-- Compact entries do not depend on their level when their values do not. -/
theorem writeEntries_level {es : List (Bytes × Value)}
    (h : ∀ e ∈ es, ∀ l, writeValue false l e.2 = writeValue false 0 e.2) :
    ∀ first l l', writeEntries false l first es = writeEntries false l' first es := by
  induction es with
  | nil => exact fun first l l' => by rw [writeEntries, writeEntries]
  | cons e es ih =>
    intro first l l'
    obtain ⟨k, x⟩ := e
    rw [writeEntries, writeEntries, h (k, x) List.mem_cons_self l, h (k, x) List.mem_cons_self l',
      ih (fun e he => h e (List.mem_cons_of_mem _ he)) false l l']
    rfl

/-- Compact items do not depend on their level when the items do not. -/
theorem writeItems_level {xs : List Value}
    (h : ∀ x ∈ xs, ∀ l, writeValue false l x = writeValue false 0 x) :
    ∀ first l l', writeItems false l first xs = writeItems false l' first xs := by
  induction xs with
  | nil => exact fun first l l' => by rw [writeItems, writeItems]
  | cons x xs ih =>
    intro first l l'
    rw [writeItems, writeItems, h x List.mem_cons_self l, h x List.mem_cons_self l',
      ih (fun y hy => h y (List.mem_cons_of_mem _ hy)) false l l']
    rfl

/-- Compact text does not depend on the level a value stands at: only indentation does. -/
theorem writeValue_compact (v : Value) : ∀ l, writeValue false l v = writeValue false 0 v := by
  induction v using Value.induction_mem with
  | str b => exact fun l => by rw [writeValue, writeValue]
  | int n => exact fun l => by rw [writeValue, writeValue]
  | float x => exact fun l => by rw [writeValue, writeValue]
  | bool b => exact fun l => by rw [writeValue, writeValue]
  | null => exact fun l => by rw [writeValue, writeValue]
  | dict es ih =>
    intro l
    cases es with
    | nil => rw [writeValue, writeValue]
    | cons e es => rw [writeValue, writeValue, writeEntries_level ih true (l + 1) 1]; rfl
  | list xs ih =>
    intro l
    cases xs with
    | nil => rw [writeValue, writeValue]
    | cons x xs => rw [writeValue, writeValue, writeItems_level ih true (l + 1) 1]; rfl

/-- One member of a compact object: its key as a JSON string, a colon, and its value's text. -/
def MemberText (e : Bytes × Value) (part : String) : Prop :=
  ∃ cs vt, Utf8.decode? e.1 = some cs ∧ render e.2 = .ok vt ∧ part = quoteText cs ++ ":" ++ vt

theorem intercalate_comma (p : String) (ps : List String) :
    String.intercalate "," (p :: ps) = p ++ String.join (ps.map ("," ++ ·)) := by
  induction ps generalizing p with
  | nil => rw [String.intercalate_singleton, List.map_nil, String.join_nil, String.append_empty]
  | cons q ps ih =>
    simp only [String.intercalate_cons_cons, ih, List.map_cons, String.join_cons,
      String.append_assoc]

/-- The compact text of one entry, when its key is UTF-8 and its value is written. -/
theorem memberText_of_write {k : Bytes} {x : Value} {cs : List Char} {l : Nat} {vt : String}
    (hk : Utf8.decode? k = some cs) (hx : writeValue false l x = .ok vt) :
    MemberText (k, x) (quoteText cs ++ ":" ++ vt) :=
  ⟨cs, vt, hk, by rw [render, ← writeValue_compact x l, hx]; rfl, rfl⟩

/-- Compact entries are member texts joined by commas; after a first entry, each one follows a
comma. -/
theorem writeEntries_compact {es : List (Bytes × Value)} {l : Nat} :
    ∀ {first : Bool} {body : String}, writeEntries false l first es = .ok body →
      ∃ parts, List.Forall₂ MemberText es parts ∧
        body = if first then String.intercalate "," parts else String.join (parts.map ("," ++ ·)) := by
  induction es with
  | nil =>
    intro first body h
    rw [writeEntries] at h
    cases h
    exact ⟨[], .nil, by cases first <;> rfl⟩
  | cons e es ih =>
    intro first body h
    obtain ⟨k, x⟩ := e
    obtain ⟨cs, vt, more, hk, hx, hm, rfl⟩ := writeEntries_cons_eq_ok h
    obtain ⟨parts, hparts, rfl⟩ := ih hm
    refine ⟨_ :: parts, .cons (memberText_of_write hk hx) hparts, ?_⟩
    cases first
    · simp only [lead, Bool.false_eq_true, if_false, List.map_cons, String.join_cons,
        String.append_empty, String.append_assoc]
    · simp only [lead, Bool.false_eq_true, if_false, if_true, intercalate_comma,
        String.empty_append, String.append_assoc]

/-- Compact text writes the members of an object, joined by commas, in the order of its
entries. -/
theorem render_dict {es : List (Bytes × Value)} {t : String} (h : render (.dict es) = .ok t) :
    ∃ parts, List.Forall₂ MemberText es parts ∧
      t = "\x7b" ++ String.intercalate "," parts ++ "\x7d" := by
  have hbody : writeValue false 0 (.dict es) = .ok t := mapError_eq_ok.1 h
  cases es with
  | nil =>
    simp only [writeValue, Except.ok.injEq] at hbody
    exact ⟨[], .nil, hbody ▸ rfl⟩
  | cons e es =>
    simp only [writeValue] at hbody
    cases hw : writeEntries false 1 true (e :: es) with
    | error f =>
      rw [hw] at hbody
      cases hbody
    | ok more =>
      rw [hw] at hbody
      cases hbody
      obtain ⟨parts, hparts, rfl⟩ := writeEntries_compact hw
      exact ⟨parts, hparts, rfl⟩

end Json

open Value in
/-- Every value the readers, the conversions and runs of edits give keeps the keys of each of
its dicts strictly ascending. After a run of edits on a dict, a lookup finds the value of the
last `set` of its key (the old value if none set it), and there are as many entries as distinct
keys; on a value of another kind lookups find nothing, and an edit of the wrong kind is a
mismatch naming the kind found that leaves the value as it was. Compact text writes the
members of a sorted dict in ascending order of their keys. -/
theorem dicts_stay_sorted :
    (∀ (m : Nat) (data rest : Bytes) (v : Value),
      Tnetstring.readPrefix m data = .ok (v, rest) → v.Sorted) ∧
    (∀ (m : Nat) (s : String) (v : Value), Json.parse m (Bytes.ofString s) = .ok v → v.Sorted) ∧
    (∀ (t : Json.Tree) (v : Value), Json.ofTree t = .ok v → v.Sorted) ∧
    (∀ t : Tag, (empty t).Sorted) ∧
    (∀ v : Value, v.tag ≠ .dict → v.tag ≠ .list → v.Sorted) ∧
    (∀ xs : List Value, (∀ x ∈ xs, x.Sorted) → (Value.list xs).Sorted) ∧
    (∀ ps : List (Bytes × Value), (∀ p ∈ ps, p.2.Sorted) →
      (Value.dict (entriesOfPairs ps)).Sorted) ∧
    (∀ (v : Value) (es : List Edit), v.Sorted → (∀ e ∈ es, e.stored.Sorted) →
      (es.foldl edit v).Sorted) ∧
    (∀ (ds : List (Bytes × Value)) (es : List Edit) (k : Bytes),
      (es.foldl edit (Value.dict ds)).get? k =
        ((es.filterMap (Edit.storedUnder k)).getLast?).or (lookupEntry k ds)) ∧
    (∀ (v : Value) (es : List Edit) (k : Bytes), v.tag ≠ .dict → (es.foldl edit v).get? k = none) ∧
    (∀ (ds : List (Bytes × Value)) (es : List Edit), KeysAscend ds →
      (es.foldl edit (Value.dict ds)).asEntries.map List.length =
        some ((ds.map Prod.fst ++ es.filterMap Edit.key?).toFinset.card)) ∧
    (∀ (v : Value) (k : Bytes) (x : Value), v.tag ≠ .dict →
      v.dictSet k x = .error (.typeMismatch Tag.dict.name v.tag) ∧ v.edit (.set k x) = v) ∧
    (∀ v x : Value, v.tag ≠ .list →
      v.listAppend x = .error (.typeMismatch Tag.list.name v.tag) ∧ v.edit (.append x) = v) ∧
    (∀ (es : List (Bytes × Value)) (t : String), (Value.dict es).Sorted →
      Json.render (.dict es) = .ok t → KeysAscend es ∧
        ∃ parts, List.Forall₂ Json.MemberText es parts ∧
          t = "\x7b" ++ String.intercalate "," parts ++ "\x7d") := by
  refine ⟨fun _ _ _ _ h => Tnetstring.sorted_readPrefix h, fun _ _ _ h => Json.sorted_parse h,
    fun _ _ h => Json.sorted_ofTree h, sorted_empty, fun _ hd hl => sorted_of_scalar hd hl,
    fun _ h => .list h, fun _ h => sorted_entriesOfPairs h,
    fun _ es hv hes => sorted_foldl_edit es hes hv, fun ds es k => get?_foldl_edit_dict es k ds,
    fun _ es k hv => get?_foldl_edit_of_tag_ne es hv k,
    fun _ es hds => length_foldl_edit_dict es hds,
    fun _ k x hv => ⟨dictSet_of_tag_ne hv k x, edit_of_apply_error (dictSet_of_tag_ne hv k x)⟩,
    fun _ x hv => ⟨listAppend_of_tag_ne hv x, edit_of_apply_error (listAppend_of_tag_ne hv x)⟩,
    fun _ _ hs h => ⟨?_, Json.render_dict h⟩⟩
  cases hs with
  | dict hk _ => exact hk

open Value in
/-- A run that sets `b`, is refused an append, and sets `b` again keeps one entry, found with
the second value; a string refuses a `set`; and the dict `{"a": 1, "b": null}` is written with
`a` before `b`. -/
theorem dicts_stay_sorted_run :
    ((empty .dict).Sorted ∧
      (∀ e ∈ [Edit.set [98] (.int 1), .append .null, .set [98] (.int 2)], e.stored.Sorted) ∧
      ([Edit.set [98] (.int 1), .append .null, .set [98] (.int 2)].foldl edit (empty .dict)).Sorted) ∧
    ([Edit.set [98] (.int 1), .append .null, .set [98] (.int 2)].foldl edit (.dict [])).get? [98] =
      some (.int 2) ∧
    (KeysAscend [] ∧
      ([Edit.set [98] (.int 1), .append .null, .set [98] (.int 2)].foldl edit (.dict [])).asEntries.map
        List.length = some 1) ∧
    ((Value.str [120]).tag ≠ .dict ∧
      (Value.str [120]).dictSet [107] .null = .error (.typeMismatch "dict" .string)) ∧
    ((Value.dict [([97], .int 1), ([98], .null)]).Sorted ∧
      Json.render (.dict [([97], .int 1), ([98], .null)]) = .ok "\x7b\"a\":1,\"b\":null\x7d" ∧
      KeysAscend [([97], Value.int 1), ([98], .null)]) := by
  have hs := dicts_stay_sorted
  have hstored : ∀ e ∈ [Edit.set [98] (.int 1), .append .null, .set [98] (.int 2)],
      e.stored.Sorted := by
    intro e he
    simp only [List.mem_cons, List.not_mem_nil, or_false] at he
    rcases he with rfl | rfl | rfl
    · exact .int 1
    · exact .null
    · exact .int 2
  have hdict : (Value.dict [([97], .int 1), ([98], .null)]).Sorted := by
    refine .dict (List.pairwise_pair.2 rfl) fun e he => ?_
    simp only [List.mem_cons, List.not_mem_nil, or_false] at he
    rcases he with rfl | rfl
    · exact .int 1
    · exact .null
  have hrender : Json.render (.dict [([97], .int 1), ([98], .null)]) =
      .ok "\x7b\"a\":1,\"b\":null\x7d" := by
    -- the key bytes are decoded by well-founded recursion, which only the kernel evaluates
    have h : (Json.render (.dict [([97], .int 1), ([98], .null)])).toOption =
        some "\x7b\"a\":1,\"b\":null\x7d" := by
      decide +kernel
    revert h
    cases Json.render (.dict [([97], .int 1), ([98], .null)]) <;> simp [Except.toOption]
  refine ⟨⟨sorted_empty .dict, hstored, hs.2.2.2.2.2.2.2.1 _ _ (sorted_empty .dict) hstored⟩,
    (hs.2.2.2.2.2.2.2.2.1 [] _ [98]).trans rfl,
    ⟨List.Pairwise.nil, (hs.2.2.2.2.2.2.2.2.2.2.1 [] _ List.Pairwise.nil).trans rfl⟩,
    ⟨by decide, (hs.2.2.2.2.2.2.2.2.2.2.2.1 _ [107] .null (by decide)).1⟩,
    ⟨hdict, hrender, (hs.2.2.2.2.2.2.2.2.2.2.2.2.2 _ _ hdict hrender).1⟩⟩

end HandlerKit
