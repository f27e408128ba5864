import HandlerKit.Proofs.Json.Numbers
import HandlerKit.Proofs.Json.Strings
import HandlerKit.Proofs.Json.Writing

/-!
# Written JSON text reads back

The text written for a representable value reads back as that value, provided each of its
floats reads back from its own text. Integers, strings, keys, the order of items and the
order of entries all come back; the floats come back exactly when their texts do, which the
float reader does not promise for every float.

**One value** (`ReadsBack`). Reading the text of a value, written in either layout at any
level and followed by the end of a value, gives the value and leaves that end, possibly after
white space. Scalars read back by the lemmas on words, numbers and strings.

**Containers** (`arrayItems_writeItems`, `objectEntries_writeEntries`). The members of a
container read back one after another, each ending where the next separator or the closing
bracket starts. The entries of an object are inserted one by one; since written keys ascend,
inserting them rebuilds the same entries (`Value.foldl_insertEntry_of_keysAscend`).

**Theorem (`readsBack_of_representable`).** By induction on the value, every representable
value whose floats read back, with fewer levels than containers the reader may still open,
reads back. Hence a whole text read back under the default nesting limit gives the value
(`parse_writeValue`).
-/

namespace HandlerKit.Json

open Value (Representable)

/-- Reading the text of `v`, written in either layout at any level and followed by the end of
a value, gives `v` and leaves that end, possibly after white space. -/
def ReadsBack (d : Nat) (v : Value) : Prop :=
  ∀ (pretty : Bool) (level : Nat) (t : String) (s : Bytes), writeValue pretty level v = .ok t →
    Ends s → ∃ bl, Blanks bl ∧ (value d (Bytes.ofString t ++ s)).out = .ok (v, bl ++ s)

/-! ## Separators and closing brackets -/

theorem ends_comma (t : Bytes) : Ends (44 :: t) := .inr (.inl rfl)

theorem ofString_bracket : Bytes.ofString "]" = [93] := by
  rw [Utf8.ofString_eq_encode]
  rfl

theorem ofString_brace : Bytes.ofString "\x7d" = [125] := by
  rw [Utf8.ofString_eq_encode]
  rfl

/-- What the layout puts before a closing bracket is skipped, and the bracket follows. -/
theorem skipBlank_closing {pretty : Bool} {level : Nat} {mark : String} {c : UInt8}
    (hm : Bytes.ofString mark = [c]) (hc : isBlank c = false) (s : Bytes) :
    (skipBlank (Bytes.ofString (closing pretty level mark) ++ s)).1 = c :: s := by
  rw [ofString_closing, hm, List.append_assoc, skipBlank_blanks_append _ (blanks_layout _ _),
    List.singleton_append, skipBlank_of_not_blank _ hc]
  rfl

theorem ends_closing {pretty : Bool} {level : Nat} {mark : String} {c : UInt8}
    (hm : Bytes.ofString mark = [c]) (hc : c = 93 ∨ c = 125) (s : Bytes) :
    Ends (Bytes.ofString (closing pretty level mark) ++ s) := by
  rw [ofString_closing, hm]
  cases pretty with
  | true =>
    rw [if_pos rfl, Utf8.ofString_append, show Bytes.ofString "\n" = [10] by
      rw [Utf8.ofString_eq_encode]; rfl]
    exact .inl rfl
  | false =>
    rw [if_neg (by decide), Utf8.ofString_empty]
    rcases hc with rfl | rfl
    · exact .inr (.inr (.inl rfl))
    · exact .inr (.inr (.inr rfl))

/-- A read value is read the same after white space. -/
theorem value_of_blanks_append {d : Nat} {bl r : Bytes} {v : Value} {rest : Bytes} (hbl : Blanks bl)
    (h : (value d r).out = .ok (v, rest)) : (value d (bl ++ r)).out = .ok (v, rest) :=
  value_congr h (skipBlank_blanks_append r hbl).symm

/-- The first byte of a read value is no blank, so the value is read from there on. -/
theorem value_of_head {d : Nat} {r : Bytes} {v : Value} {rest : Bytes}
    (h : (value d r).out = .ok (v, rest)) :
    ∃ c s, (skipBlank r).1 = c :: s ∧ c ≠ 93 ∧ (value d (c :: s)).out = .ok (v, rest) := by
  obtain ⟨c, s, hsk, hc⟩ := value_eq_ok_head h
  refine ⟨c, s, hsk, hc, value_congr h ?_⟩
  rw [hsk, skipBlank_of_not_blank _ (not_blank_of_skipBlank hsk)]
  rfl

/-! ## Array items -/

section Items

variable {d : Nat} {pretty : Bool} {level : Nat}

/-- After white space, the separator a member is written with (none before the first, a comma
before the others) and the white space of the layout, the next item is read. -/
theorem arrayItems_of_lead {item : (r : Bytes) → Step r Value} {first : Bool} {acc : List Value}
    {bl gap r s : Bytes} {c : UInt8} (hbl : Blanks bl) (hgap : Blanks gap)
    (hsk : (skipBlank r).1 = c :: s) (hc : c ≠ 93) :
    (arrayItems item first acc (bl ++ ((if first then [] else [44]) ++ (gap ++ r)))).out =
      (item (c :: s)).out.bind fun p => (arrayItems item false (p.1 :: acc) p.2).out := by
  have hitem : (skipBlank (gap ++ r)).1 = c :: s := (skipBlank_blanks_append _ hgap).trans hsk
  cases first with
  | true =>
    rw [if_pos rfl, List.nil_append]
    exact arrayItems_of_first ((skipBlank_blanks_append _ hbl).trans hitem) hc
  | false =>
    have hcomma : (skipBlank (bl ++ ([44] ++ (gap ++ r)))).1 = 44 :: (gap ++ r) := by
      rw [skipBlank_blanks_append _ hbl, List.singleton_append, skipBlank_of_not_blank _ (by decide)]
      rfl
    rw [if_neg (by decide)]
    exact arrayItems_of_comma hcomma hitem hc

/-- The items of an array, written after any white space and followed by the closing
bracket, read back in order. -/
theorem arrayItems_writeItems (s : Bytes) :
    ∀ {xs : List Value} {first : Bool} (acc : List Value) {body : String} {bl : Bytes},
      (∀ x ∈ xs, ReadsBack d x) → writeItems pretty level first xs = .ok body → Blanks bl →
      (arrayItems (value d) first acc
        (bl ++ (Bytes.ofString body ++ (Bytes.ofString (closing pretty level "]") ++ s)))).out =
        .ok (acc.reverse ++ xs, s)
  | [], first, acc, body, bl, _, hw, hbl => by
    cases hw
    have hsk : (skipBlank (bl ++ (Bytes.ofString "" ++
        (Bytes.ofString (closing pretty level "]") ++ s)))).1 = 93 :: s := by
      rw [skipBlank_blanks_append _ hbl, Utf8.ofString_empty, List.nil_append]
      exact skipBlank_closing ofString_bracket (by decide) s
    rw [arrayItems_of_close hsk, List.append_nil]
  | x :: xs, first, acc, body, bl, hxs, hw, hbl => by
    obtain ⟨vt, more, hvt, hmore, rfl⟩ := writeItems_cons_eq_ok hw
    -- the first item ends where the other items, or the closing bracket, start
    have hends : Ends (Bytes.ofString more ++ (Bytes.ofString (closing pretty level "]") ++ s)) := by
      rcases writeItems_rest hmore with h | ⟨t, h⟩
      · rw [h, List.nil_append]
        exact ends_closing ofString_bracket (.inl rfl) s
      · rw [h]
        exact ends_comma _
    obtain ⟨bl', hbl', hx⟩ := hxs x List.mem_cons_self pretty level vt _ hvt hends
    obtain ⟨c, s', hsk, hc, hx'⟩ := value_of_head hx
    have ih := arrayItems_writeItems s (x :: acc) (fun y hy => hxs y (List.mem_cons_of_mem x hy))
      hmore hbl'
    rw [Utf8.ofString_append, Utf8.ofString_append, ofString_lead, List.append_assoc,
      List.append_assoc, List.append_assoc]
    generalize Bytes.ofString more ++ (Bytes.ofString (closing pretty level "]") ++ s) = rest
      at hsk hx' ih ⊢
    rw [arrayItems_of_lead hbl (blanks_layout pretty level) hsk hc, hx']
    show (arrayItems (value d) false (x :: acc) (bl' ++ rest)).out = _
    rw [ih, List.reverse_cons, List.append_assoc, List.singleton_append]

end Items

/-! ## Object entries -/

theorem ofString_colon (pretty : Bool) :
    Bytes.ofString (if pretty then ": " else ":") = 58 :: (if pretty then [32] else []) := by
  cases pretty <;> (rw [Utf8.ofString_eq_encode]; rfl)

theorem blanks_colon_gap (pretty : Bool) : Blanks (if pretty then [32] else []) := by
  intro b hb
  cases pretty with
  | true =>
    rw [if_pos rfl, List.mem_singleton] at hb
    rw [hb]
    rfl
  | false => cases hb

section Entries

variable {d : Nat} {pretty : Bool} {level : Nat}

/-- After white space, the separator an entry is written with and the white space of the
layout, the next entry is read: its key, a colon, and its value. -/
theorem objectEntries_of_lead {item : (r : Bytes) → Step r Value} {first : Bool}
    {acc : List (Bytes × Value)} {bl gap k s4 s5 key : Bytes} (hbl : Blanks bl) (hgap : Blanks gap)
    (hkey : (stringBody [] k).out = .ok (key, s4)) (hcolon : (skipBlank s4).1 = 58 :: s5) :
    (objectEntries item first acc (bl ++ ((if first then [] else [44]) ++ (gap ++ 34 :: k)))).out =
      (item s5).out.bind fun p => (objectEntries item false (Value.insertEntry key p.1 acc) p.2).out := by
  have hquote : (skipBlank (gap ++ 34 :: k)).1 = 34 :: k := by
    rw [skipBlank_blanks_append _ hgap, skipBlank_of_not_blank _ (by decide)]
    rfl
  cases first with
  | true =>
    rw [if_pos rfl, List.nil_append]
    exact objectEntries_of_first ((skipBlank_blanks_append _ hbl).trans hquote) hkey hcolon
  | false =>
    have hcomma : (skipBlank (bl ++ ([44] ++ (gap ++ 34 :: k)))).1 = 44 :: (gap ++ 34 :: k) := by
      rw [skipBlank_blanks_append _ hbl, List.singleton_append, skipBlank_of_not_blank _ (by decide)]
      rfl
    rw [if_neg (by decide)]
    exact objectEntries_of_comma hcomma hquote hkey hcolon

/-- The entries of an object, written after any white space and followed by the closing
brace, read back: each key and its value, inserted in the order written. -/
theorem objectEntries_writeEntries (s : Bytes) :
    ∀ {es : List (Bytes × Value)} {first : Bool} (acc : List (Bytes × Value)) {body : String}
      {bl : Bytes}, (∀ e ∈ es, ReadsBack d e.2) → writeEntries pretty level first es = .ok body →
      Blanks bl →
      (objectEntries (value d) first acc
        (bl ++ (Bytes.ofString body ++ (Bytes.ofString (closing pretty level "\x7d") ++ s)))).out =
        .ok (es.foldl (fun acc e => Value.insertEntry e.1 e.2 acc) acc, s)
  | [], first, acc, body, bl, _, hw, hbl => by
    cases hw
    have hsk : (skipBlank (bl ++ (Bytes.ofString "" ++
        (Bytes.ofString (closing pretty level "\x7d") ++ s)))).1 = 125 :: s := by
      rw [skipBlank_blanks_append _ hbl, Utf8.ofString_empty, List.nil_append]
      exact skipBlank_closing ofString_brace (by decide) s
    rw [objectEntries_of_close hsk]
    rfl
  | (k, v) :: es, first, acc, body, bl, hes, hw, hbl => by
    obtain ⟨cs, vt, more, hcs, hvt, hmore, rfl⟩ := writeEntries_cons_eq_ok hw
    -- the value ends where the other entries, or the closing brace, start
    have hends : Ends (Bytes.ofString more ++ (Bytes.ofString (closing pretty level "\x7d") ++ s)) := by
      rcases writeEntries_rest hmore with h | ⟨t, h⟩
      · rw [h, List.nil_append]
        exact ends_closing ofString_brace (.inr rfl) s
      · rw [h]
        exact ends_comma _
    obtain ⟨bl', hbl', hv⟩ := hes (k, v) List.mem_cons_self pretty level vt _ hvt hends
    have ih := objectEntries_writeEntries s (Value.insertEntry k v acc)
      (fun e he => hes e (List.mem_cons_of_mem _ he)) hmore hbl'
    -- the bytes of the entry, split where the reader's steps meet (the reader's result type
    -- depends on the bytes, so they are rewritten as a whole)
    have hbytes : Bytes.ofString (lead pretty first level ++ quoteText cs ++
        (if pretty then ": " else ":") ++ vt ++ more) ++
        (Bytes.ofString (closing pretty level "\x7d") ++ s) =
        (if first then [] else [44]) ++ (Bytes.ofString (if pretty then "\n" ++ indentText level else "") ++
          (34 :: (Utf8.encode (cs.flatMap escapeChar) ++ 34 :: 58 :: ((if pretty then [32] else []) ++
            (Bytes.ofString vt ++ (Bytes.ofString more ++
              (Bytes.ofString (closing pretty level "\x7d") ++ s))))))) := by
      simp only [Utf8.ofString_append, ofString_lead, ofString_quoteText, ofString_colon,
        List.append_assoc, List.cons_append, List.nil_append]
    rw [hbytes]
    generalize Bytes.ofString more ++ (Bytes.ofString (closing pretty level "\x7d") ++ s) = rest
      at hv ih ⊢
    -- the key reads back, then the colon, then the value after white space
    have hkey : (stringBody [] (Utf8.encode (cs.flatMap escapeChar) ++
        34 :: 58 :: ((if pretty then [32] else []) ++ (Bytes.ofString vt ++ rest)))).out =
        .ok (k, 58 :: ((if pretty then [32] else []) ++ (Bytes.ofString vt ++ rest))) := by
      rw [stringBody_escaped, ← Utf8.eq_encode_of_decode? hcs]
      rfl
    have hcolon : (skipBlank (58 :: ((if pretty then [32] else []) ++ (Bytes.ofString vt ++ rest)))).1 =
        58 :: ((if pretty then [32] else []) ++ (Bytes.ofString vt ++ rest)) := by
      rw [skipBlank_of_not_blank _ (by decide)]
      rfl
    rw [objectEntries_of_lead hbl (blanks_layout pretty level) hkey hcolon,
      value_of_blanks_append (blanks_colon_gap pretty) hv]
    show (objectEntries (value d) false (Value.insertEntry k v acc) (bl' ++ rest)).out = _
    rw [ih]
    rfl

end Entries

/-! ## Scalars and containers -/

section Values

variable {d : Nat} {pretty : Bool} {level : Nat} {t : String}

/-- A literal word, after its first byte, reads back as its value. -/
theorem value_of_word {c : UInt8} {w : Bytes} {u : Value} (hc : isBlank c = false)
    (hv : ∀ {r s : Bytes}, (skipBlank r).1 = c :: s →
      (value d r).out = (word w s).map fun x => (u, x.1)) (s : Bytes) :
    (value d (c :: (w ++ s))).out = .ok (u, s) := by
  rw [hv (skipBlank_val_of_not_blank _ hc)]
  exact map_word_eq_ok (word_append w s)

theorem value_writeBool (b : Bool) (hw : writeValue pretty level (.bool b) = .ok t) (s : Bytes) :
    (value d (Bytes.ofString t ++ s)).out = .ok (.bool b, s) := by
  cases hw
  cases b with
  | true =>
    rw [if_pos rfl, show Bytes.ofString "true" = 116 :: [114, 117, 101] by
      rw [Utf8.ofString_eq_encode]; rfl]
    exact value_of_word (by decide) value_of_true s
  | false =>
    rw [if_neg (by decide), show Bytes.ofString "false" = 102 :: [97, 108, 115, 101] by
      rw [Utf8.ofString_eq_encode]; rfl]
    exact value_of_word (by decide) value_of_false s

theorem value_writeNull (hw : writeValue pretty level .null = .ok t) (s : Bytes) :
    (value d (Bytes.ofString t ++ s)).out = .ok (.null, s) := by
  cases hw
  rw [show Bytes.ofString "null" = 110 :: [117, 108, 108] by rw [Utf8.ofString_eq_encode]; rfl]
  exact value_of_word (by decide) value_of_null s

/-- An array whose items read back one level down reads back. -/
theorem value_writeList {xs : List Value} (hxs : ∀ x ∈ xs, ReadsBack (d + 1) x)
    (hw : writeValue pretty level (.list xs) = .ok t) (s : Bytes) :
    (value (d + 2) (Bytes.ofString t ++ s)).out = .ok (.list xs, s) := by
  cases xs with
  | nil =>
    cases hw
    rw [show Bytes.ofString "[]" ++ s = 91 :: 93 :: s by rw [Utf8.ofString_eq_encode]; rfl,
      value_of_bracket (skipBlank_val_of_not_blank _ (by decide)),
      arrayItems_of_close (skipBlank_val_of_not_blank _ (by decide))]
    rfl
  | cons x xs =>
    rw [writeValue] at hw
    cases hb : writeItems pretty (level + 1) true (x :: xs) with
    | error f => rw [hb] at hw; cases hw
    | ok body =>
      rw [hb] at hw
      cases hw
      have hbytes : Bytes.ofString ("[" ++ body ++ closing pretty (level + 1) "]") ++ s =
          91 :: ([] ++ (Bytes.ofString body ++ (Bytes.ofString (closing pretty (level + 1) "]") ++ s))) := by
        rw [Utf8.ofString_append, Utf8.ofString_append,
          show Bytes.ofString "[" = [91] by rw [Utf8.ofString_eq_encode]; rfl]
        simp only [List.append_assoc, List.cons_append, List.nil_append]
      rw [hbytes, value_of_bracket (skipBlank_val_of_not_blank _ (by decide)),
        arrayItems_writeItems s [] hxs hb blanks_nil]
      rfl

/-- An object whose keys ascend and whose values read back one level down reads back. -/
theorem value_writeDict {es : List (Bytes × Value)} (hk : Value.KeysAscend es)
    (hes : ∀ e ∈ es, ReadsBack (d + 1) e.2) (hw : writeValue pretty level (.dict es) = .ok t)
    (s : Bytes) : (value (d + 2) (Bytes.ofString t ++ s)).out = .ok (.dict es, s) := by
  cases es with
  | nil =>
    cases hw
    rw [show Bytes.ofString "\x7b\x7d" ++ s = 123 :: 125 :: s by rw [Utf8.ofString_eq_encode]; rfl,
      value_of_brace (skipBlank_val_of_not_blank _ (by decide)),
      objectEntries_of_close (skipBlank_val_of_not_blank _ (by decide))]
    rfl
  | cons e es =>
    rw [writeValue] at hw
    cases hb : writeEntries pretty (level + 1) true (e :: es) with
    | error f => rw [hb] at hw; cases hw
    | ok body =>
      rw [hb] at hw
      cases hw
      have hbytes : Bytes.ofString ("\x7b" ++ body ++ closing pretty (level + 1) "\x7d") ++ s =
          123 :: ([] ++ (Bytes.ofString body ++ (Bytes.ofString (closing pretty (level + 1) "\x7d") ++ s))) := by
        rw [Utf8.ofString_append, Utf8.ofString_append,
          show Bytes.ofString "\x7b" = [123] by rw [Utf8.ofString_eq_encode]; rfl]
        simp only [List.append_assoc, List.cons_append, List.nil_append]
      -- ascending keys are rebuilt by inserting them one by one into no entries
      have hfold := @Value.foldl_insertEntry_of_keysAscend _ [] hk fun _ h => absurd h List.not_mem_nil
      rw [hbytes, value_of_brace (skipBlank_val_of_not_blank _ (by decide)),
        objectEntries_writeEntries s [] hes hb blanks_nil, hfold]
      rfl

end Values

/-! ## Every representable value reads back -/

/-- The text of a representable value, with fewer levels than containers the reader may still
open and whose floats read back from their own texts, reads back as that value. -/
theorem readsBack_of_representable {v : Value} (hv : Representable v) :
    ∀ {d : Nat}, v.depth < d →
      (∀ x ∈ v.floats, parse defaultDepth (Bytes.ofString (floatText x)) = .ok (.float x)) →
      ReadsBack d v := by
  induction hv with
  | @str b h =>
    intro d _ _ pretty level t s hw _
    obtain ⟨cs, hcs⟩ := Option.isSome_iff_exists.1 h
    rw [writeValue, hcs] at hw
    cases hw
    exact ⟨[], blanks_nil, value_quoteText hcs d s⟩
  | int n =>
    intro d _ _ pretty level t s hw hs
    cases hw
    exact ⟨[], blanks_nil, value_intText n hs⟩
  | @float x h =>
    intro d _ hfl pretty level t s hw hs
    rw [writeValue, if_pos h] at hw
    cases hw
    exact value_append_of_parse_float (hfl x List.mem_cons_self) hs
  | bool b =>
    intro d _ _ pretty level t s hw _
    exact ⟨[], blanks_nil, value_writeBool b hw s⟩
  | null =>
    intro d _ _ pretty level t s hw _
    exact ⟨[], blanks_nil, value_writeNull hw s⟩
  | @dict es hk _ _ ih =>
    intro d hd hfl pretty level t s hw _
    -- a container takes two of the reader's levels and reads its members with one less
    obtain ⟨d, rfl⟩ : ∃ d', d = d' + 2 := ⟨d - 2, by rw [Value.depth] at hd; omega⟩
    have hes : ∀ e ∈ es, ReadsBack (d + 1) e.2 := fun e he =>
      ih e he (by have := Value.depth_le_of_mem_entries he; rw [Value.depth] at hd; omega)
        fun x hx => hfl x (Value.floats_of_mem_entries he hx)
    exact ⟨[], blanks_nil, value_writeDict hk hes hw s⟩
  | @list xs _ ih =>
    intro d hd hfl pretty level t s hw _
    obtain ⟨d, rfl⟩ : ∃ d', d = d' + 2 := ⟨d - 2, by rw [Value.depth] at hd; omega⟩
    have hxs : ∀ x ∈ xs, ReadsBack (d + 1) x := fun x hx =>
      ih x hx (by have := Value.depth_le_of_mem_items hx; rw [Value.depth] at hd; omega)
        fun y hy => hfl y (Value.floats_of_mem_items hx hy)
    exact ⟨[], blanks_nil, value_writeList hxs hw s⟩

/-! ## Whole texts -/

/-- A value followed by white space only is the value of the whole text. -/
theorem readText_of_value {text rest : Bytes} {v : Value}
    (hv : (value recursionLimit text).out = .ok (v, rest)) (hrest : Blanks rest) :
    readText text = .ok v := by
  unfold readText
  cases h : value recursionLimit text with
  | error e => rw [h] at hv; cases hv
  | ok p =>
    obtain ⟨w, rest', hr⟩ := p
    rw [h] at hv
    obtain ⟨rfl, rfl⟩ := Prod.mk.inj (Except.ok.inj hv)
    have hsk : (skipBlank rest').1 = [] := by
      rw [← List.append_nil rest', skipBlank_blanks_append _ hrest]
      rfl
    dsimp only
    rw [show skipBlank rest' = ⟨[], hsk ▸ (skipBlank rest').2⟩ from Subtype.ext hsk]

/-- A text read as a value no deeper than the limit parses as that value. -/
theorem parse_of_readText {limit : Nat} {text : Bytes} {v : Value} (h : readText text = .ok v)
    (hd : v.depth ≤ limit) : parse limit text = .ok v := by
  rw [parse, h]
  dsimp only
  rw [if_neg (Nat.not_lt.2 hd)]

/-- The text written for a representable value at most the default depth deep, whose floats
read back from their own texts, parses back as the value. -/
theorem parse_writeValue {v : Value} (hv : Representable v) (hd : v.depth ≤ defaultDepth)
    (hfl : ∀ x ∈ v.floats, parse defaultDepth (Bytes.ofString (floatText x)) = .ok (.float x))
    (pretty : Bool) {t : String} (hw : writeValue pretty 0 v = .ok t) :
    parse defaultDepth (Bytes.ofString t) = .ok v := by
  have hlimit : v.depth < recursionLimit := by
    unfold recursionLimit
    unfold defaultDepth at hd
    omega
  obtain ⟨bl, hbl, hread⟩ := readsBack_of_representable hv hlimit hfl pretty 0 t [] hw trivial
  rw [List.append_nil, List.append_nil] at hread
  exact parse_of_readText (readText_of_value hread hbl) hd

end HandlerKit.Json
