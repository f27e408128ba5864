import HandlerKit.Proofs.Json.RoundTrip
import HandlerKit.Proofs.Depth
import HandlerKit.Config.Schema

/-!
# Two nesting limits on JSON text

Reading JSON under a configured limit `m` meets two limits. The reader itself lets at most
`recursionLimit - 1 = 127` arrays and objects be open at once and stops with
`recursionLimitExceeded` at the next one; that stop is reported as `tooDeep (min m 128)`. A
value read in full is then checked against `m` by its depth, which counts a scalar or an empty
container as one level.

**Texts** (`Denotes`). A text stands for a value at any nesting: a scalar as the reader reads
it, or an array or object whose members stand for the values in turn, no object repeating a
key. The number of containers open at once is then the value's `nesting` (0 for a scalar).

**The reader's own limit.** With `d + 1` containers allowed, a text is read as its value when
its nesting is at most `d` (`Denotes.read`), and reading stops at the limit otherwise
(`Denotes.limit`): every member before the first one too deep is read as before.

**Theorem (`parse_depth_limit`).** For every limit a handler configuration admits
(`1 ≤ m ≤ 128`), a text standing for `v` with no repeated key is read as `v` when `v` is at
most `m` deep and has fewer than 128 containers open at once, and is `tooDeep m` otherwise.
The two conditions differ only at `m = 128`, for values of 128 nested containers, the
innermost empty: these are 128 levels deep, yet the reader refuses them
(`recursion_limit_rejects_128_nested_arrays`).
-/

namespace HandlerKit

namespace Value

mutual
/-- The most arrays and objects open at once in a value: none in a scalar, and one more in a
container than in its members. -/
def nesting : Value → Nat
  | dict es => 1 + entriesNesting es
  | list xs => 1 + itemsNesting xs
  | _ => 0

/-- The greatest nesting of the values of some entries, 0 for none. -/
def entriesNesting : List (Bytes × Value) → Nat
  | [] => 0
  | (_, v) :: rest => max (nesting v) (entriesNesting rest)

/-- The greatest nesting of some items, 0 for none. -/
def itemsNesting : List Value → Nat
  | [] => 0
  | v :: rest => max (nesting v) (itemsNesting rest)
end

theorem nesting_list (xs : List Value) : (list xs).nesting = 1 + itemsNesting xs := by
  rw [nesting]

theorem nesting_dict (es : List (Bytes × Value)) : (dict es).nesting = 1 + entriesNesting es := by
  rw [nesting]

theorem itemsNesting_le_iff {n : Nat} :
    ∀ {xs : List Value}, itemsNesting xs ≤ n ↔ ∀ x ∈ xs, x.nesting ≤ n
  | [] => by simp [itemsNesting]
  | x :: xs => by
    rw [itemsNesting, Nat.max_le, itemsNesting_le_iff, List.forall_mem_cons]

theorem entriesNesting_le_iff {n : Nat} :
    ∀ {es : List (Bytes × Value)}, entriesNesting es ≤ n ↔ ∀ e ∈ es, e.2.nesting ≤ n
  | [] => by simp [entriesNesting]
  | (k, v) :: es => by
    rw [entriesNesting, Nat.max_le, entriesNesting_le_iff, List.forall_mem_cons]

/-- `n + 1` arrays, each but the innermost holding the next one. -/
def nestedEmpty : Nat → Value
  | 0 => .list []
  | n + 1 => .list [nestedEmpty n]

theorem depth_nestedEmpty : ∀ n, (nestedEmpty n).depth = n + 1
  | 0 => rfl
  | n + 1 => by
    rw [nestedEmpty, depth_list, itemsDepth, itemsDepth, depth_nestedEmpty n]
    omega

theorem nesting_nestedEmpty : ∀ n, (nestedEmpty n).nesting = n + 1
  | 0 => rfl
  | n + 1 => by
    rw [nestedEmpty, nesting_list, itemsNesting, itemsNesting, nesting_nestedEmpty n]
    omega

end Value

/-- A configuration section is accepted only with a depth limit from 1 to 128. -/
theorem HandlerSection.maxDepth_of_validate {h : HandlerSection} (hv : h.validate = .ok ()) :
    1 ≤ h.maxDepth ∧ h.maxDepth ≤ jsonMaxDepth := by
  unfold validate at hv
  dsimp only at hv
  -- every check but the last throws or passes on; the last one is the depth bound
  repeat' split at hv
  all_goals first
    | (rename_i hdepth
       simp only [Bool.not_eq_true', Bool.not_eq_false, Bool.and_eq_true, decide_eq_true_eq] at hdepth
       exact hdepth)
    | cases hv

namespace Json

/-! ## Scalars are read alike under every limit -/

theorem numberOut_nesting {r rest : Bytes} {x : Step r Number} {v : Value}
    (h : numberOut x = .ok (v, rest)) : v.nesting = 0 := by
  obtain ⟨⟨k, r'⟩, -, h⟩ := bind_eq_ok.1 h
  obtain ⟨w, hw, hwe⟩ := map_eq_ok.1 h
  cases hwe
  unfold numberValue at hw
  split at hw
  · split at hw
    · cases hw
      rfl
    · cases hw
  · cases hw
    rfl
  · cases hw
    rfl

/-- What is read with no container allowed to open is a scalar, read alike under any limit. -/
theorem value_zero_scalar {r rest : Bytes} {v : Value} (h : (value 0 r).out = .ok (v, rest)) :
    v.nesting = 0 ∧ ∀ d, (value d r).out = .ok (v, rest) := by
  obtain ⟨c, s, hsk, hv⟩ := value_eq_ok h
  rcases hv with ⟨rfl, rfl, hw⟩ | ⟨rfl, rfl, hw⟩ | ⟨rfl, rfl, hw⟩ | ⟨rfl, hn⟩ | ⟨hc, hn⟩ |
    ⟨rfl, b, hb, rfl⟩ | ⟨rfl, d', xs, hd, -⟩ | ⟨rfl, d', es, hd, -⟩
  · exact ⟨rfl, fun d => by rw [value_of_null hsk, map_word_eq_ok hw]⟩
  · exact ⟨rfl, fun d => by rw [value_of_true hsk, map_word_eq_ok hw]⟩
  · exact ⟨rfl, fun d => by rw [value_of_false hsk, map_word_eq_ok hw]⟩
  · exact ⟨numberOut_nesting hn, fun d => by rw [value_of_minus hsk, hn]⟩
  · exact ⟨numberOut_nesting hn, fun d => by rw [value_of_digit hsk hc, hn]⟩
  · exact ⟨rfl, fun d => by rw [value_of_quote hsk, hb]; rfl⟩
  · cases hd
  · cases hd

/-! ## Texts standing for values -/

mutual
/-- After white space, `r` starts with a JSON value standing for `v`, followed by `rest`: a
scalar, or an array or an object at any nesting, no object in it repeating a key. -/
inductive Denotes : Bytes → Value → Bytes → Prop
  | scalar {r rest : Bytes} {v : Value} (h : (value 0 r).out = .ok (v, rest)) : Denotes r v rest
  | array {r s rest : Bytes} {xs : List Value} (hsk : (skipBlank r).1 = 91 :: s)
      (h : DenotesItems true s xs rest) : Denotes r (.list xs) rest
  | object {r s rest : Bytes} {ps : List (Bytes × Value)} (hsk : (skipBlank r).1 = 123 :: s)
      (h : DenotesMembers true s ps rest) (hk : (ps.map Prod.fst).Nodup) :
      Denotes r (.dict (Value.entriesOfPairs ps)) rest

/-- The items of an array after its `[` (`first`) or after an item, up to and past its `]`. -/
inductive DenotesItems : Bool → Bytes → List Value → Bytes → Prop
  | close {first : Bool} {r s : Bytes} (hsk : (skipBlank r).1 = 93 :: s) : DenotesItems first r [] s
  | first {r s rest : Bytes} {x : Value} {xs : List Value} (hx : Denotes r x s)
      (h : DenotesItems false s xs rest) : DenotesItems true r (x :: xs) rest
  | next {r s t rest : Bytes} {x : Value} {xs : List Value} (hsk : (skipBlank r).1 = 44 :: s)
      (hx : Denotes s x t) (h : DenotesItems false t xs rest) : DenotesItems false r (x :: xs) rest

/-- The members of an object after its `{` (`first`) or after a member, up to and past its `}`:
each a string key, a colon and a value, the pairs in the order of the text. -/
inductive DenotesMembers : Bool → Bytes → List (Bytes × Value) → Bytes → Prop
  | close {first : Bool} {r s : Bytes} (hsk : (skipBlank r).1 = 125 :: s) :
      DenotesMembers first r [] s
  | first {r k key s4 s5 t rest : Bytes} {v : Value} {ps : List (Bytes × Value)}
      (hsk : (skipBlank r).1 = 34 :: k) (hkey : (stringBody [] k).out = .ok (key, s4))
      (hcolon : (skipBlank s4).1 = 58 :: s5) (hv : Denotes s5 v t) (h : DenotesMembers false t ps rest) :
      DenotesMembers true r ((key, v) :: ps) rest
  | next {r s k key s4 s5 t rest : Bytes} {v : Value} {ps : List (Bytes × Value)}
      (hsk : (skipBlank r).1 = 44 :: s) (hsk2 : (skipBlank s).1 = 34 :: k)
      (hkey : (stringBody [] k).out = .ok (key, s4)) (hcolon : (skipBlank s4).1 = 58 :: s5)
      (hv : Denotes s5 v t) (h : DenotesMembers false t ps rest) :
      DenotesMembers false r ((key, v) :: ps) rest
end

/-- A whole text stands for `v`: one value and nothing but white space after it. -/
def DenotesText (text : Bytes) (v : Value) : Prop :=
  ∃ rest, Denotes text v rest ∧ (skipBlank rest).1 = []

/-- A value starts, after white space, with a byte that does not close an array. -/
theorem Denotes.head {r rest : Bytes} {v : Value} (h : Denotes r v rest) :
    ∃ c s, (skipBlank r).1 = c :: s ∧ c ≠ 93 := by
  cases h with
  | scalar h => exact value_eq_ok_head h
  | array hsk => exact ⟨_, _, hsk, by decide⟩
  | object hsk => exact ⟨_, _, hsk, by decide⟩

/-- The first byte after white space, read from there on, is read alike. -/
theorem skipBlank_head {r s : Bytes} {c : UInt8} (hsk : (skipBlank r).1 = c :: s) :
    (skipBlank (c :: s)).1 = (skipBlank r).1 := by
  rw [hsk, skipBlank_val_of_not_blank _ (not_blank_of_skipBlank hsk)]

/-! ## Reading within the limit -/

mutual
/-- With `d + 1` containers allowed, a text is read as its value when its nesting is at most
`d`, from any bytes that agree with it after white space. -/
theorem Denotes.read {d : Nat} {r rest : Bytes} {v : Value} :
    Denotes r v rest → v.nesting ≤ d → ∀ r', (skipBlank r').1 = (skipBlank r).1 →
      (value (d + 1) r').out = .ok (v, rest)
  | .scalar h, _, r', hr => value_congr ((value_zero_scalar h).2 _) hr.symm
  | .array hsk h, hn, r', hr => by
    rw [Value.nesting_list] at hn
    obtain ⟨d', rfl⟩ : ∃ d', d = d' + 1 := ⟨d - 1, by omega⟩
    have hitems := DenotesItems.read h (d := d')
      (Value.itemsNesting_le_iff.1 (by omega)) []
    rw [value_of_bracket (hr.trans hsk), hitems]
    rfl
  | .object hsk h _, hn, r', hr => by
    rw [Value.nesting_dict] at hn
    obtain ⟨d', rfl⟩ : ∃ d', d = d' + 1 := ⟨d - 1, by omega⟩
    -- with no key repeated, every member's value is kept in the dict
    have hmembers := DenotesMembers.read h (d := d') (fun p hp => by
      have := Value.entriesNesting_le_iff.1 (Nat.le_refl _) p
        (Value.mem_entriesOfPairs_of_nodup ‹_› hp)
      omega) []
    rw [value_of_brace (hr.trans hsk), hmembers]
    rfl

theorem DenotesItems.read {d : Nat} {first : Bool} {r rest : Bytes} {xs : List Value} :
    DenotesItems first r xs rest → (∀ x ∈ xs, x.nesting ≤ d) →
      ∀ acc, (arrayItems (value (d + 1)) first acc r).out = .ok (acc.reverse ++ xs, rest)
  | .close hsk, _, acc => by rw [arrayItems_of_close hsk, List.append_nil]
  | @DenotesItems.first _ _ _ x xs hx h, hn, acc => by
    obtain ⟨c, s, hsk, hc⟩ := hx.head
    have hhead := Denotes.read hx (hn x List.mem_cons_self) (c :: s) (skipBlank_head hsk)
    have htail := DenotesItems.read h (fun y hy => hn y (List.mem_cons_of_mem _ hy)) (x :: acc)
    rw [arrayItems_of_first hsk hc, hhead]
    simpa [Except.bind] using htail
  | @DenotesItems.next _ _ _ _ x xs hsk hx h, hn, acc => by
    obtain ⟨c, s, hsk2, hc⟩ := hx.head
    have hhead := Denotes.read hx (hn x List.mem_cons_self) (c :: s) (skipBlank_head hsk2)
    have htail := DenotesItems.read h (fun y hy => hn y (List.mem_cons_of_mem _ hy)) (x :: acc)
    rw [arrayItems_of_comma hsk hsk2 hc, hhead]
    simpa [Except.bind] using htail

theorem DenotesMembers.read {d : Nat} {first : Bool} {r rest : Bytes} {ps : List (Bytes × Value)} :
    DenotesMembers first r ps rest → (∀ p ∈ ps, p.2.nesting ≤ d) →
      ∀ acc, (objectEntries (value (d + 1)) first acc r).out =
        .ok (ps.foldl (fun acc p => Value.insertEntry p.1 p.2 acc) acc, rest)
  | .close hsk, _, acc => objectEntries_of_close hsk
  | @DenotesMembers.first _ _ key _ _ _ _ v _ hsk hkey hcolon hv h, hn, acc => by
    have hval := Denotes.read hv (hn (key, v) List.mem_cons_self) _ rfl
    have htail := DenotesMembers.read h (fun p hp => hn p (List.mem_cons_of_mem _ hp))
      (Value.insertEntry key v acc)
    rw [objectEntries_of_first hsk hkey hcolon, hval]
    exact htail
  | @DenotesMembers.next _ _ _ key _ _ _ _ v _ hsk hsk2 hkey hcolon hv h, hn, acc => by
    have hval := Denotes.read hv (hn (key, v) List.mem_cons_self) _ rfl
    have htail := DenotesMembers.read h (fun p hp => hn p (List.mem_cons_of_mem _ hp))
      (Value.insertEntry key v acc)
    rw [objectEntries_of_comma hsk hsk2 hkey hcolon, hval]
    exact htail
end

/-! ## Reading past the limit -/

/-- Reading stopped because one more container would be open than allowed. -/
def HitsLimit {α : Type} (x : Except Stop α) : Prop :=
  ∃ st, x = .error st ∧ st.problem = .recursionLimitExceeded

theorem HitsLimit.bind {α β : Type} {x : Except Stop α} {f : α → Except Stop β} (h : HitsLimit x) :
    HitsLimit (x.bind f) := by
  obtain ⟨st, rfl, hst⟩ := h
  exact ⟨st, rfl, hst⟩

theorem HitsLimit.map {α β : Type} {x : Except Stop α} {f : α → β} (h : HitsLimit x) :
    HitsLimit (x.map f) := by
  obtain ⟨st, rfl, hst⟩ := h
  exact ⟨st, rfl, hst⟩

mutual
/-- With `d + 1` containers allowed, a text whose nesting is more than `d` stops at the limit,
from any bytes that agree with it after white space. -/
theorem Denotes.limit {d : Nat} {r rest : Bytes} {v : Value} :
    Denotes r v rest → d < v.nesting → ∀ r', (skipBlank r').1 = (skipBlank r).1 →
      HitsLimit (value (d + 1) r').out
  | .scalar h, hn, _, _ => by
    rw [(value_zero_scalar h).1] at hn
    exact absurd hn (Nat.not_lt_zero d)
  | @Denotes.array _ _ _ xs hsk h, hn, r', hr => by
    rw [Value.nesting_list] at hn
    obtain _ | d' := d
    · exact ⟨_, value_of_open_limit (hr.trans hsk) (.inl rfl) (by omega), rfl⟩
    -- some item nests deeper than the level below allows
    have hdeep : ∃ x ∈ xs, d' < x.nesting := by
      have hlt : ¬ Value.itemsNesting xs ≤ d' := by omega
      simpa using mt Value.itemsNesting_le_iff.2 hlt
    rw [value_of_bracket (hr.trans hsk)]
    exact (DenotesItems.limit h hdeep []).map
  | @Denotes.object _ _ _ ps hsk h _, hn, r', hr => by
    rw [Value.nesting_dict] at hn
    obtain _ | d' := d
    · exact ⟨_, value_of_open_limit (hr.trans hsk) (.inr rfl) (by omega), rfl⟩
    -- the dict keeps only values of members, so some member nests that deep
    have hdeep : ∃ p ∈ ps, d' < p.2.nesting := by
      have hlt : ¬ Value.entriesNesting (Value.entriesOfPairs ps) ≤ d' := by omega
      have := mt Value.entriesNesting_le_iff.2 hlt
      simp only [Classical.not_forall, Nat.not_le] at this
      obtain ⟨e, he, hed⟩ := this
      exact ⟨e, Value.mem_of_mem_entriesOfPairs he, hed⟩
    rw [value_of_brace (hr.trans hsk)]
    exact (DenotesMembers.limit h hdeep []).map

theorem DenotesItems.limit {d : Nat} {first : Bool} {r rest : Bytes} {xs : List Value} :
    DenotesItems first r xs rest → (∃ x ∈ xs, d < x.nesting) →
      ∀ acc, HitsLimit (arrayItems (value (d + 1)) first acc r).out
  | .close _, ⟨_, hx, _⟩, _ => nomatch hx
  | .first (x := x) hx h, hdeep, acc => by
    obtain ⟨c, s, hsk, hc⟩ := hx.head
    have hhead := Denotes.limit hx (d := d)
    have htail := DenotesItems.limit h (d := d)
    rw [arrayItems_of_first hsk hc]
    by_cases hn : d < x.nesting
    · exact (hhead hn (c :: s) (skipBlank_head hsk)).bind
    -- the first item is read as before, and a later one is too deep
    rw [Denotes.read hx (Nat.le_of_not_lt hn) (c :: s) (skipBlank_head hsk)]
    obtain ⟨y, hy, hyn⟩ := hdeep
    rcases List.mem_cons.1 hy with rfl | hy
    · exact absurd hyn hn
    · exact htail ⟨y, hy, hyn⟩ _
  | .next (x := x) hsk hx h, hdeep, acc => by
    obtain ⟨c, s, hsk2, hc⟩ := hx.head
    have hhead := Denotes.limit hx (d := d)
    have htail := DenotesItems.limit h (d := d)
    rw [arrayItems_of_comma hsk hsk2 hc]
    by_cases hn : d < x.nesting
    · exact (hhead hn (c :: s) (skipBlank_head hsk2)).bind
    rw [Denotes.read hx (Nat.le_of_not_lt hn) (c :: s) (skipBlank_head hsk2)]
    obtain ⟨y, hy, hyn⟩ := hdeep
    rcases List.mem_cons.1 hy with rfl | hy
    · exact absurd hyn hn
    · exact htail ⟨y, hy, hyn⟩ _

theorem DenotesMembers.limit {d : Nat} {first : Bool} {r rest : Bytes} {ps : List (Bytes × Value)} :
    DenotesMembers first r ps rest → (∃ p ∈ ps, d < p.2.nesting) →
      ∀ acc, HitsLimit (objectEntries (value (d + 1)) first acc r).out
  | .close _, ⟨_, hp, _⟩, _ => nomatch hp
  | .first (v := v) hsk hkey hcolon hv h, hdeep, acc => by
    have hval := Denotes.limit hv (d := d)
    have htail := DenotesMembers.limit h (d := d)
    rw [objectEntries_of_first hsk hkey hcolon]
    by_cases hn : d < v.nesting
    · exact (hval hn _ rfl).bind
    -- the first member is read as before, and a later one is too deep
    rw [Denotes.read hv (Nat.le_of_not_lt hn) _ rfl]
    obtain ⟨p, hp, hpn⟩ := hdeep
    rcases List.mem_cons.1 hp with rfl | hp
    · exact absurd hpn hn
    · exact htail ⟨p, hp, hpn⟩ _
  | .next (v := v) hsk hsk2 hkey hcolon hv h, hdeep, acc => by
    have hval := Denotes.limit hv (d := d)
    have htail := DenotesMembers.limit h (d := d)
    rw [objectEntries_of_comma hsk hsk2 hkey hcolon]
    by_cases hn : d < v.nesting
    · exact (hval hn _ rfl).bind
    rw [Denotes.read hv (Nat.le_of_not_lt hn) _ rfl]
    obtain ⟨p, hp, hpn⟩ := hdeep
    rcases List.mem_cons.1 hp with rfl | hp
    · exact absurd hpn hn
    · exact htail ⟨p, hp, hpn⟩ _
end

/-! ## Whole texts -/

/-- A stop in reading the value is a stop of the whole text. -/
theorem readText_of_error {text : Bytes} {st : Stop} (h : (value recursionLimit text).out = .error st) :
    readText text = .error st := by
  unfold readText
  cases hv : value recursionLimit text with
  | error e =>
    rw [hv, out_error] at h
    cases h
    rfl
  | ok p =>
    rw [hv] at h
    cases h

/-- A text standing for a value with fewer than 128 containers open at once is read. -/
theorem readText_of_denotes {text : Bytes} {v : Value} (h : DenotesText text v)
    (hn : v.nesting < recursionLimit) : readText text = .ok v := by
  obtain ⟨rest, hd, hrest⟩ := h
  exact readText_of_value (hd.read (d := 127) (by exact Nat.le_of_lt_succ hn) text rfl)
    (blanks_of_skipBlank_nil hrest)

/-- A text standing for a value with 128 containers open at once stops at the reader's limit. -/
theorem readText_limit {text : Bytes} {v : Value} (h : DenotesText text v)
    (hn : recursionLimit ≤ v.nesting) :
    ∃ st, readText text = .error st ∧ st.problem = .recursionLimitExceeded := by
  obtain ⟨rest, hd, -⟩ := h
  obtain ⟨st, hst, hp⟩ := hd.limit (d := 127) hn text rfl
  exact ⟨st, readText_of_error hst, hp⟩

/-- At 128 containers open at once the reader stops, whatever the depth limit. -/
theorem parse_of_recursionLimit {m : Nat} {text : Bytes} {v : Value} (ht : DenotesText text v)
    (hn : recursionLimit ≤ v.nesting) : parse m text = .error (.tooDeep (min m recursionLimit)) := by
  obtain ⟨st, hst, hp⟩ := readText_limit ht hn
  rw [parse, hst]
  dsimp only
  rw [if_pos hp]

/-- For every depth limit `m` a handler configuration admits, a text standing for `v`, with no
object repeating a key, is read as `v` when `v` is at most `m` deep and has fewer than 128
arrays and objects open at once, and is `tooDeep m` otherwise. -/
theorem parse_depth_limit {h : HandlerSection} (hv : h.validate = .ok ()) {text : Bytes}
    {v : Value} (ht : DenotesText text v) :
    parse h.maxDepth text =
      if v.depth ≤ h.maxDepth ∧ v.nesting < recursionLimit then .ok v
      else .error (.tooDeep h.maxDepth) := by
  have hmax : h.maxDepth ≤ recursionLimit := (h.maxDepth_of_validate hv).2
  by_cases hn : v.nesting < recursionLimit
  · rw [parse, readText_of_denotes ht hn]
    dsimp only
    by_cases hd : v.depth ≤ h.maxDepth
    · rw [if_neg (Nat.not_lt.2 hd), if_pos ⟨hd, hn⟩]
    · rw [if_pos (Nat.lt_of_not_le hd), if_neg fun hc => hd hc.1]
  · rw [parse_of_recursionLimit ht (Nat.le_of_not_lt hn), if_neg fun hc => hn hc.2,
      Nat.min_eq_left hmax]

/-! ## Arrays nested in arrays -/

/-- The text `[[…[]…]]` of `n + 1` nested arrays. -/
def nestedEmptyText : Nat → Bytes
  | 0 => [91, 93]
  | n + 1 => 91 :: (nestedEmptyText n ++ [93])

theorem denotes_nestedEmpty : ∀ (n : Nat) (r : Bytes),
    Denotes (nestedEmptyText n ++ r) (Value.nestedEmpty n) r
  | 0, r => .array rfl (.close rfl)
  | n + 1, r => by
    have hinner := denotes_nestedEmpty n (93 :: r)
    rw [nestedEmptyText, List.cons_append, List.append_assoc, List.singleton_append]
    exact .array rfl (.first hinner (.close rfl))

theorem denotesText_nestedEmpty (n : Nat) :
    DenotesText (nestedEmptyText n) (Value.nestedEmpty n) := by
  refine ⟨[], ?_, rfl⟩
  simpa using denotes_nestedEmpty n []

/-- Under a limit of 2 the text `[[]]` reads as two nested arrays. -/
theorem parse_nested_pair :
    ({ recvAddr := "inproc://requests", sendAddr := "inproc://replies", maxDepth := 2 } :
        HandlerSection).validate = .ok () ∧
      parse 2 (nestedEmptyText 1) = .ok (Value.nestedEmpty 1) := by
  have hv : ({ recvAddr := "inproc://requests", sendAddr := "inproc://replies", maxDepth := 2 } :
      HandlerSection).validate = .ok () := rfl
  refine ⟨hv, ?_⟩
  have hp := parse_depth_limit hv (denotesText_nestedEmpty 1)
  rw [Value.depth_nestedEmpty, Value.nesting_nestedEmpty] at hp
  exact hp

/-- The largest limit a configuration admits is 128, and 128 nested arrays are 128 levels deep,
yet the reader, which lets only 127 containers be open at once, refuses them as too deep. -/
theorem recursion_limit_rejects_128_nested_arrays :
    ({ recvAddr := "inproc://requests", sendAddr := "inproc://replies", maxDepth := 128 } :
        HandlerSection).validate = .ok () ∧
      DenotesText (nestedEmptyText 127) (Value.nestedEmpty 127) ∧
      (Value.nestedEmpty 127).depth ≤ 128 ∧
      parse 128 (nestedEmptyText 127) = .error (.tooDeep 128) := by
  have hn : recursionLimit ≤ (Value.nestedEmpty 127).nesting := by
    rw [Value.nesting_nestedEmpty]
    exact Nat.le_refl _
  refine ⟨rfl, denotesText_nestedEmpty 127, Nat.le_of_eq (Value.depth_nestedEmpty 127), ?_⟩
  rw [parse_of_recursionLimit (denotesText_nestedEmpty 127) hn]
  rfl

end Json

end HandlerKit
