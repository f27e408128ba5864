import HandlerKit.Proofs.Except
import HandlerKit.Json.Reader

/-!
# Reading JSON: the first byte decides

The reader skips white space and then looks at one byte: `n`, `t` and `f` start a literal word,
a minus sign or a digit a number, a quote a string, `[` an array and `{` an object, and anything
else is no value. An array or an object looks at one byte after white space in the same way to
decide whether it closes, goes on after a comma, or starts its first member. The lemmas here say
what each branch does once that byte is known, so that later proofs follow a text and not the
reader's code.

**Steps without their bounds** (`Step.out`). A step returns what it read and the bytes it left,
a suffix carrying a proof that it is no longer than the input. Forgetting the proof makes steps
on different inputs comparable; widening a step changes nothing (`out_widen`).

**White space.** Skipping white space passes over any prefix of blanks
(`skipBlank_blanks_append`) and stops at a byte that is not blank.

**Where a value may end** (`Ends`). After a value the writer puts nothing, white space, a comma
or a closing bracket; none of these continues a number.

**Dispatch and inversion.** `value_of_cons` states the reader's tests on the first byte once,
with the bounds forgotten; `value_of_null` … `value_of_brace` are its branches. Conversely
`value_eq_ok` lists every way a value can be read, and since that depends only on the bytes
after the white space, a read value is read the same from any input that agrees there
(`value_congr`). `arrayItems_of_*` and `objectEntries_of_*` do the same for the
members of arrays and objects.
-/

namespace HandlerKit.Json

/-! ## Steps without their bounds -/

/-- What a step read and the bytes it left, the bound on their length forgotten. -/
def Step.out {r : Bytes} {α : Type} (x : Step r α) : Except Stop (α × Bytes) :=
  x.map fun p => (p.1, p.2.1)

section Out

variable {r s : Bytes} {α β : Type}

@[simp] theorem out_ok (a : α) (x : Rest r) : Step.out (.ok (a, x) : Step r α) = .ok (a, x.1) :=
  rfl

@[simp] theorem out_error (e : Stop) : Step.out (.error e : Step r α) = .error e := rfl

@[simp] theorem out_widen (x : Step s α) (h : s.length ≤ r.length) : (x.widen h).out = x.out := by
  cases x <;> rfl

@[simp] theorem out_map (x : Step r α) (f : α → β) :
    Step.out (x.map fun p => (f p.1, p.2)) = x.out.map fun p => (f p.1, p.2) := by
  cases x <;> rfl

end Out

/-! ## White space -/

/-- Bytes that are all white space. -/
def Blanks (bl : Bytes) : Prop := ∀ b ∈ bl, isBlank b = true

theorem blanks_nil : Blanks [] := fun _ h => nomatch h

theorem skipBlank_eq_mk {r c s} (hsk : (skipBlank r).1 = c :: s) :
    skipBlank r = ⟨c :: s, hsk ▸ (skipBlank r).2⟩ :=
  Subtype.ext hsk

theorem skipBlank_of_not_blank {c : UInt8} (s : Bytes) (h : isBlank c = false) :
    skipBlank (c :: s) = Rest.all (c :: s) := by
  rw [skipBlank, if_neg (by simp [h])]

theorem skipBlank_val_of_not_blank {c : UInt8} (s : Bytes) (h : isBlank c = false) :
    (skipBlank (c :: s)).1 = c :: s := by
  rw [skipBlank_of_not_blank s h]
  rfl

theorem skipBlank_cons_blank {c : UInt8} (s : Bytes) (h : isBlank c = true) :
    (skipBlank (c :: s)).1 = (skipBlank s).1 := by
  rw [skipBlank, if_pos h]
  rfl

theorem skipBlank_blanks_append {bl : Bytes} (r : Bytes) (hbl : Blanks bl) :
    (skipBlank (bl ++ r)).1 = (skipBlank r).1 := by
  induction bl with
  | nil => rfl
  | cons b bl ih =>
    rw [List.cons_append, skipBlank_cons_blank _ (hbl b List.mem_cons_self)]
    exact ih fun x hx => hbl x (List.mem_cons_of_mem b hx)

/-- Skipping stops at a byte that is not blank. -/
theorem not_blank_of_skipBlank {c : UInt8} {s : Bytes} :
    ∀ {r : Bytes}, (skipBlank r).1 = c :: s → isBlank c = false
  | [], h => nomatch h
  | b :: r, h => by
    cases hb : isBlank b with
    | true => exact not_blank_of_skipBlank (skipBlank_cons_blank r hb ▸ h)
    | false =>
      rw [skipBlank_of_not_blank r hb] at h
      obtain ⟨rfl, -⟩ := List.cons.inj h
      exact hb

/-- Bytes that skip to nothing are all white space. -/
theorem blanks_of_skipBlank_nil : ∀ {r : Bytes}, (skipBlank r).1 = [] → Blanks r
  | [], _ => fun _ hb => nomatch hb
  | b :: r, h => by
    cases hb : isBlank b with
    | true =>
      have hr := blanks_of_skipBlank_nil (skipBlank_cons_blank r hb ▸ h)
      intro x hx
      rcases List.mem_cons.1 hx with rfl | hx
      · exact hb
      · exact hr x hx
    | false =>
      rw [skipBlank_of_not_blank r hb] at h
      cases h

/-- Skipping white space before bytes that start with a non-blank byte. -/
theorem skipBlank_append_of_skipBlank {r s : Bytes} {b : UInt8} (t : Bytes)
    (hsk : (skipBlank r).1 = b :: s) : (skipBlank (r ++ t)).1 = b :: (s ++ t) := by
  induction r with
  | nil => cases hsk
  | cons a r ih =>
    cases ha : isBlank a with
    | true =>
      rw [List.cons_append, skipBlank_cons_blank _ ha]
      exact ih (skipBlank_cons_blank r ha ▸ hsk)
    | false =>
      rw [skipBlank_of_not_blank r ha] at hsk
      rw [List.cons_append, skipBlank_of_not_blank _ ha]
      obtain ⟨rfl, rfl⟩ := List.cons.inj hsk
      rfl

/-! ## Where a value may end -/

/-- What may follow a value: nothing, or white space, a comma or a closing bracket. -/
def Ends : Bytes → Prop
  | [] => True
  | c :: _ => isBlank c = true ∨ c = 44 ∨ c = 93 ∨ c = 125

/-- A byte that may follow a value is no digit, no point and no exponent mark. -/
theorem Ends.not_number {c : UInt8} {s : Bytes} (h : Ends (c :: s)) :
    isDigit c = false ∧ c ≠ 46 ∧ isExponentMark c = false := by
  rcases h with h | rfl | rfl | rfl
  · simp only [isBlank, Bool.or_eq_true, decide_eq_true_eq] at h
    rcases h with ((rfl | rfl) | rfl) | rfl <;> decide
  all_goals decide

/-! ## Literal words -/

theorem word_append (w s : Bytes) : (word w (w ++ s)).map Subtype.val = .ok s := by
  induction w with
  | nil => rfl
  | cons b w ih =>
    rw [List.cons_append, word, if_pos rfl]
    revert ih
    cases word w (w ++ s) <;> exact id

/-- A word read leaving `rest` gives its value with `rest`. -/
theorem map_word_eq_ok {w s rest : Bytes} {u : Value} (hw : (word w s).map Subtype.val = .ok rest) :
    (word w s).map (fun x => (u, x.1)) = .ok (u, rest) := by
  obtain ⟨x, hx, rfl⟩ := map_eq_ok.1 hw
  rw [hx]
  rfl

/-! ## Values -/

section Value

variable {d : Nat} {r s : Bytes}

/-- After white space there is nothing: no value. -/
theorem value_of_nil (hsk : (skipBlank r).1 = []) :
    (value d r).out = .error (stopAhead .eofInValue []) := by
  rw [value, show skipBlank r = ⟨[], hsk ▸ (skipBlank r).2⟩ from Subtype.ext hsk]
  rfl

/-- A number read as a value: the integer or float it stands for, and what follows it. -/
def numberOut {r : Bytes} (x : Step r Number) : Except Stop (Value × Bytes) :=
  x.out.bind fun p => (numberValue p.1 p.2).map fun v => (v, p.2)

theorem numberOut_widen {r r' : Bytes} (x : Step r Number)
    (h : r.length ≤ r'.length) :
    Step.out (match x.widen h with
      | .error e => .error e
      | .ok (k, rest) => (numberValue k rest.1).map fun v => (v, rest)) = numberOut x := by
  cases x with
  | error e => rfl
  | ok p =>
    obtain ⟨k, rest⟩ := p
    show Step.out (Except.map (fun v => (v, _)) (numberValue k rest.1)) =
      Except.map (fun v => (v, rest.1)) (numberValue k rest.1)
    cases numberValue k rest.1 <;> rfl

/-- Reading a value once the byte after white space is known: the reader's tests in order,
each branch with the bound on what it leaves forgotten. -/
theorem value_of_cons {c : UInt8} (hsk : (skipBlank r).1 = c :: s) :
    (value d r).out =
      if c = 110 then (word [117, 108, 108] s).map fun x => (.null, x.1)
      else if c = 116 then (word [114, 117, 101] s).map fun x => (.bool true, x.1)
      else if c = 102 then (word [97, 108, 115, 101] s).map fun x => (.bool false, x.1)
      else if c = 45 then numberOut (number false s)
      else if isDigit c then numberOut (number true (c :: s))
      else if c = 34 then (stringBody [] s).out.map fun p => (.str p.1, p.2)
      else if c = 91 then
        match d with
        | d + 2 => (arrayItems (value (d + 1)) true [] s).out.map fun p => (.list p.1, p.2)
        | _ => .error (stopAhead .recursionLimitExceeded (c :: s))
      else if c = 123 then
        match d with
        | d + 2 => (objectEntries (value (d + 1)) true [] s).out.map fun p => (.dict p.1, p.2)
        | _ => .error (stopAhead .recursionLimitExceeded (c :: s))
      else .error (stopAhead .expectedValue (c :: s)) := by
  rw [value, skipBlank_eq_mk hsk]
  dsimp only
  have hword : ∀ (w : Bytes) (u : Value) (h : s.length ≤ r.length),
      (Step.widen ((word w s).map fun x => (u, x)) h).out = (word w s).map fun x => (u, x.1) := by
    intro w u h
    rw [out_widen]
    cases word w s <;> rfl
  -- both sides test the first byte in the same order
  by_cases h110 : c = 110
  · rw [if_pos h110, if_pos h110, hword]
  rw [if_neg h110, if_neg h110]
  by_cases h116 : c = 116
  · rw [if_pos h116, if_pos h116, hword]
  rw [if_neg h116, if_neg h116]
  by_cases h102 : c = 102
  · rw [if_pos h102, if_pos h102, hword]
  rw [if_neg h102, if_neg h102]
  by_cases h45 : c = 45
  · rw [if_pos (.inl h45), if_pos h45, if_pos h45]
    exact numberOut_widen _ _
  cases hdig : isDigit c
  case true =>
    rw [if_pos (.inr rfl), if_neg h45, if_neg h45, if_pos rfl]
    exact numberOut_widen _ _
  rw [if_neg (by simp [h45]), if_neg h45, if_neg Bool.false_ne_true]
  by_cases h34 : c = 34
  · rw [if_pos h34, if_pos h34, out_widen, out_map]
  rw [if_neg h34, if_neg h34]
  by_cases h91 : c = 91
  · rw [if_pos h91, if_pos h91]
    match d with
    | 0 | 1 => rfl
    | d + 2 => exact (out_widen _ _).trans (out_map _ _)
  rw [if_neg h91, if_neg h91]
  by_cases h123 : c = 123
  · rw [if_pos h123, if_pos h123]
    match d with
    | 0 | 1 => rfl
    | d + 2 => exact (out_widen _ _).trans (out_map _ _)
  rw [if_neg h123, if_neg h123]
  rfl

theorem value_of_null (hsk : (skipBlank r).1 = 110 :: s) :
    (value d r).out = (word [117, 108, 108] s).map fun x => (.null, x.1) := by
  rw [value_of_cons hsk, if_pos rfl]

theorem value_of_true (hsk : (skipBlank r).1 = 116 :: s) :
    (value d r).out = (word [114, 117, 101] s).map fun x => (.bool true, x.1) := by
  rw [value_of_cons hsk, if_neg (by decide), if_pos rfl]

theorem value_of_false (hsk : (skipBlank r).1 = 102 :: s) :
    (value d r).out = (word [97, 108, 115, 101] s).map fun x => (.bool false, x.1) := by
  rw [value_of_cons hsk, if_neg (by decide), if_neg (by decide), if_pos rfl]

theorem value_of_minus (hsk : (skipBlank r).1 = 45 :: s) :
    (value d r).out = numberOut (number false s) := by
  rw [value_of_cons hsk, if_neg (by decide), if_neg (by decide), if_neg (by decide), if_pos rfl]

theorem value_of_digit {c : UInt8} (hsk : (skipBlank r).1 = c :: s) (hc : isDigit c = true) :
    (value d r).out = numberOut (number true (c :: s)) := by
  -- a digit is none of the letters and signs tested before it
  have hne : ∀ b : UInt8, isDigit b = false → c ≠ b := fun b hb h => by rw [h, hb] at hc; cases hc
  rw [value_of_cons hsk, if_neg (hne 110 rfl), if_neg (hne 116 rfl), if_neg (hne 102 rfl),
    if_neg (hne 45 rfl), if_pos hc]

theorem value_of_quote (hsk : (skipBlank r).1 = 34 :: s) :
    (value d r).out = (stringBody [] s).out.map fun p => (.str p.1, p.2) := by
  rw [value_of_cons hsk, if_neg (by decide), if_neg (by decide), if_neg (by decide),
    if_neg (by decide), if_neg (by decide), if_pos rfl]

theorem value_of_bracket (hsk : (skipBlank r).1 = 91 :: s) :
    (value (d + 2) r).out = (arrayItems (value (d + 1)) true [] s).out.map fun p => (.list p.1, p.2) := by
  rw [value_of_cons hsk, if_neg (by decide), if_neg (by decide), if_neg (by decide),
    if_neg (by decide), if_neg (by decide), if_neg (by decide), if_pos rfl]

theorem value_of_brace (hsk : (skipBlank r).1 = 123 :: s) :
    (value (d + 2) r).out =
      (objectEntries (value (d + 1)) true [] s).out.map fun p => (.dict p.1, p.2) := by
  rw [value_of_cons hsk, if_neg (by decide), if_neg (by decide), if_neg (by decide),
    if_neg (by decide), if_neg (by decide), if_neg (by decide), if_neg (by decide), if_pos rfl]

/-- With no container left to open, an array or an object is refused. -/
theorem value_of_open_limit {c : UInt8} (hsk : (skipBlank r).1 = c :: s) (hc : c = 91 ∨ c = 123)
    (hd : d < 2) : (value d r).out = .error (stopAhead .recursionLimitExceeded (c :: s)) := by
  rw [value_of_cons hsk]
  obtain rfl | rfl := hc <;> (obtain _ | _ | d := d) <;> first | omega | rfl

/-- Any other first byte is no value. -/
theorem value_of_other {c : UInt8} (hsk : (skipBlank r).1 = c :: s)
    (hc : c ≠ 110 ∧ c ≠ 116 ∧ c ≠ 102 ∧ c ≠ 45 ∧ isDigit c = false ∧ c ≠ 34 ∧ c ≠ 91 ∧ c ≠ 123) :
    (value d r).out = .error (stopAhead .expectedValue (c :: s)) := by
  obtain ⟨h1, h2, h3, h4, h5, h6, h7, h8⟩ := hc
  rw [value_of_cons hsk, if_neg h1, if_neg h2, if_neg h3, if_neg h4, if_neg (by simp [h5]), if_neg h6,
    if_neg h7, if_neg h8]

/-- Every way a value is read: after white space, a literal word, a number, a string, or an
array or object when a container may still open. -/
theorem value_eq_ok {v : Value} {rest : Bytes} (h : (value d r).out = .ok (v, rest)) :
    ∃ c s, (skipBlank r).1 = c :: s ∧
      ((c = 110 ∧ v = .null ∧ (word [117, 108, 108] s).map Subtype.val = .ok rest) ∨
       (c = 116 ∧ v = .bool true ∧ (word [114, 117, 101] s).map Subtype.val = .ok rest) ∨
       (c = 102 ∧ v = .bool false ∧ (word [97, 108, 115, 101] s).map Subtype.val = .ok rest) ∨
       (c = 45 ∧ numberOut (number false s) = .ok (v, rest)) ∨
       (isDigit c = true ∧ numberOut (number true (c :: s)) = .ok (v, rest)) ∨
       (c = 34 ∧ ∃ b, (stringBody [] s).out = .ok (b, rest) ∧ v = .str b) ∨
       (c = 91 ∧ ∃ d' xs, d = d' + 2 ∧
          (arrayItems (value (d' + 1)) true [] s).out = .ok (xs, rest) ∧ v = .list xs) ∨
       (c = 123 ∧ ∃ d' es, d = d' + 2 ∧
          (objectEntries (value (d' + 1)) true [] s).out = .ok (es, rest) ∧ v = .dict es)) := by
  cases hsk : (skipBlank r).1 with
  | nil => rw [value_of_nil hsk] at h; cases h
  | cons c s =>
    refine ⟨c, s, rfl, ?_⟩
    -- the words: the value is fixed and only what is left remains to be said
    have hword : ∀ (w : Bytes) (u : Value),
        Except.map (fun x => (u, x.1)) (word w s) = .ok (v, rest) →
          v = u ∧ (word w s).map Subtype.val = .ok rest := by
      intro w u hw
      obtain ⟨x, hx, hxe⟩ := map_eq_ok.1 hw
      obtain ⟨rfl, rfl⟩ := Prod.mk.inj hxe
      exact ⟨rfl, by rw [hx]; rfl⟩
    by_cases h110 : c = 110
    · subst h110
      exact .inl ⟨rfl, hword _ _ (value_of_null hsk ▸ h)⟩
    by_cases h116 : c = 116
    · subst h116
      exact .inr (.inl ⟨rfl, hword _ _ (value_of_true hsk ▸ h)⟩)
    by_cases h102 : c = 102
    · subst h102
      exact .inr (.inr (.inl ⟨rfl, hword _ _ (value_of_false hsk ▸ h)⟩))
    by_cases h45 : c = 45
    · subst h45
      exact .inr (.inr (.inr (.inl ⟨rfl, value_of_minus hsk ▸ h⟩)))
    cases hdig : isDigit c
    case true => exact .inr (.inr (.inr (.inr (.inl ⟨rfl, value_of_digit hsk hdig ▸ h⟩))))
    by_cases h34 : c = 34
    · subst h34
      obtain ⟨⟨b, rest'⟩, hb, hbe⟩ := map_eq_ok.1 (value_of_quote hsk ▸ h)
      obtain ⟨rfl, rfl⟩ := Prod.mk.inj hbe
      exact .inr (.inr (.inr (.inr (.inr (.inl ⟨rfl, b, hb, rfl⟩)))))
    -- an array or an object needs a container left to open
    by_cases h91 : c = 91
    · subst h91
      obtain _ | _ | d' := d
      · rw [value_of_open_limit hsk (.inl rfl) (by omega)] at h; cases h
      · rw [value_of_open_limit hsk (.inl rfl) (by omega)] at h; cases h
      obtain ⟨⟨xs, rest'⟩, hxs, hxe⟩ := map_eq_ok.1 (value_of_bracket hsk ▸ h)
      obtain ⟨rfl, rfl⟩ := Prod.mk.inj hxe
      exact .inr (.inr (.inr (.inr (.inr (.inr (.inl ⟨rfl, d', xs, rfl, hxs, rfl⟩))))))
    by_cases h123 : c = 123
    · subst h123
      obtain _ | _ | d' := d
      · rw [value_of_open_limit hsk (.inr rfl) (by omega)] at h; cases h
      · rw [value_of_open_limit hsk (.inr rfl) (by omega)] at h; cases h
      obtain ⟨⟨es, rest'⟩, hes, hee⟩ := map_eq_ok.1 (value_of_brace hsk ▸ h)
      obtain ⟨rfl, rfl⟩ := Prod.mk.inj hee
      exact .inr (.inr (.inr (.inr (.inr (.inr (.inr ⟨rfl, d', es, rfl, hes, rfl⟩))))))
    rw [value_of_other hsk ⟨h110, h116, h102, h45, hdig, h34, h91, h123⟩] at h
    cases h

/-- A value read starts, after white space, with a byte that cannot close an array. -/
theorem value_eq_ok_head {v : Value} {rest : Bytes} (h : (value d r).out = .ok (v, rest)) :
    ∃ c s, (skipBlank r).1 = c :: s ∧ c ≠ 93 := by
  obtain ⟨c, s, hsk, hv⟩ := value_eq_ok h
  refine ⟨c, s, hsk, ?_⟩
  rintro rfl
  rcases hv with ⟨h, -⟩ | ⟨h, -⟩ | ⟨h, -⟩ | ⟨h, -⟩ | ⟨h, -⟩ | ⟨h, -⟩ | ⟨h, -⟩ | ⟨h, -⟩ <;>
    revert h <;> decide

/-- A value read from some bytes is read the same from any bytes that agree with them after
white space. -/
theorem value_congr {r' : Bytes} {v : Value} {rest : Bytes} (h : (value d r).out = .ok (v, rest))
    (hr : (skipBlank r).1 = (skipBlank r').1) : (value d r').out = .ok (v, rest) := by
  obtain ⟨c, s, hsk, hv⟩ := value_eq_ok h
  have hsk' : (skipBlank r').1 = c :: s := hr ▸ hsk
  rcases hv with ⟨rfl, rfl, hw⟩ | ⟨rfl, rfl, hw⟩ | ⟨rfl, rfl, hw⟩ | ⟨rfl, hn⟩ | ⟨hc, hn⟩ |
    ⟨rfl, b, hb, rfl⟩ | ⟨rfl, d', xs, rfl, hxs, rfl⟩ | ⟨rfl, d', es, rfl, hes, rfl⟩
  · rw [value_of_null hsk', map_word_eq_ok hw]
  · rw [value_of_true hsk', map_word_eq_ok hw]
  · rw [value_of_false hsk', map_word_eq_ok hw]
  · rw [value_of_minus hsk', hn]
  · rw [value_of_digit hsk' hc, hn]
  · rw [value_of_quote hsk', hb]; rfl
  · rw [value_of_bracket hsk', hxs]; rfl
  · rw [value_of_brace hsk', hes]; rfl

end Value

/-! ## Array items -/

section Items

variable {item : (r : Bytes) → Step r Value} {first : Bool} {acc : List Value} {r s : Bytes}

theorem arrayItems_of_close (hsk : (skipBlank r).1 = 93 :: s) :
    (arrayItems item first acc r).out = .ok (acc.reverse, s) := by
  rw [arrayItems, skipBlank_eq_mk hsk]
  rfl

theorem arrayItems_of_comma {c : UInt8} {s2 : Bytes} (hsk : (skipBlank r).1 = 44 :: s)
    (hsk2 : (skipBlank s).1 = c :: s2) (hc : c ≠ 93) :
    (arrayItems item false acc r).out =
      (item (c :: s2)).out.bind fun p => (arrayItems item false (p.1 :: acc) p.2).out := by
  rw [arrayItems, skipBlank_eq_mk hsk]
  dsimp only
  rw [if_neg (by decide), if_pos ⟨rfl, rfl⟩, skipBlank_eq_mk hsk2]
  dsimp only
  rw [if_neg hc]
  cases item (c :: s2) with
  | error e => rfl
  | ok p => exact out_widen _ _

theorem arrayItems_of_first {c : UInt8} (hsk : (skipBlank r).1 = c :: s) (hc : c ≠ 93) :
    (arrayItems item true acc r).out =
      (item (c :: s)).out.bind fun p => (arrayItems item false (p.1 :: acc) p.2).out := by
  rw [arrayItems, skipBlank_eq_mk hsk]
  dsimp only
  rw [if_neg hc, if_neg (by simp), if_pos rfl]
  cases item (c :: s) with
  | error e => rfl
  | ok p => exact out_widen _ _

/-- Every way items are read: the closing bracket, or an item (the first one, or one after a
comma) and the items after it. -/
theorem arrayItems_eq_ok {xs : List Value} {rest : Bytes}
    (h : (arrayItems item first acc r).out = .ok (xs, rest)) :
    ∃ c s, (skipBlank r).1 = c :: s ∧
      ((c = 93 ∧ xs = acc.reverse ∧ rest = s) ∨
       ∃ t, ((first = true ∧ t = c :: s) ∨ (first = false ∧ c = 44 ∧ (skipBlank s).1 = t)) ∧
         ∃ v s3, (item t).out = .ok (v, s3) ∧
           (arrayItems item false (v :: acc) s3).out = .ok (xs, rest)) := by
  rw [arrayItems] at h
  split at h
  · cases h
  rename_i c s h1 hsk
  refine ⟨c, s, by rw [hsk], ?_⟩
  split at h
  · rename_i hc
    cases h
    exact .inl ⟨hc, rfl, rfl⟩
  split at h
  · rename_i hc
    split at h
    · cases h
    rename_i c2 s2 h2 hsk2
    split at h
    · cases h
    split at h
    · cases h
    rename_i v s3 h3 hitem
    rw [out_widen] at h
    refine .inr ⟨c2 :: s2, .inr ⟨by simpa using hc.2, hc.1, by rw [hsk2]⟩, v, s3, ?_, h⟩
    rw [hitem]
    rfl
  split at h
  · rename_i hfirst
    split at h
    · cases h
    rename_i v s3 h3 hitem
    rw [out_widen] at h
    refine .inr ⟨c :: s, .inl ⟨hfirst, rfl⟩, v, s3, ?_, h⟩
    rw [hitem]
    rfl
  · cases h

end Items

/-! ## Object entries -/

section Entries

variable {item : (r : Bytes) → Step r Value} {acc : List (Bytes × Value)} {r s k s4 s5 key : Bytes}

theorem objectEntries_of_close {first : Bool} (hsk : (skipBlank r).1 = 125 :: s) :
    (objectEntries item first acc r).out = .ok (acc, s) := by
  rw [objectEntries, skipBlank_eq_mk hsk]
  rfl

/-- The first entry: its key, a colon, and a value read by `item`. -/
theorem objectEntries_of_first (hsk : (skipBlank r).1 = 34 :: k)
    (hkey : (stringBody [] k).out = .ok (key, s4)) (hcolon : (skipBlank s4).1 = 58 :: s5) :
    (objectEntries item true acc r).out =
      (item s5).out.bind fun p => (objectEntries item false (Value.insertEntry key p.1 acc) p.2).out := by
  rw [objectEntries, skipBlank_eq_mk hsk]
  dsimp only
  rw [if_neg (by decide), if_neg (by simp), if_pos rfl, if_pos rfl]
  dsimp only
  obtain ⟨⟨key', ⟨s4', h4⟩⟩, hk, hke⟩ := map_eq_ok.1 hkey
  obtain ⟨rfl, rfl⟩ := Prod.mk.inj hke
  rw [hk]
  dsimp only
  rw [skipBlank_eq_mk hcolon]
  dsimp only
  rw [if_neg (by decide)]
  cases item s5 with
  | error e => rfl
  | ok p => exact out_widen _ _

/-- An entry after a comma: its key, a colon, and a value read by `item`. -/
theorem objectEntries_of_comma (hsk : (skipBlank r).1 = 44 :: s) (hsk2 : (skipBlank s).1 = 34 :: k)
    (hkey : (stringBody [] k).out = .ok (key, s4)) (hcolon : (skipBlank s4).1 = 58 :: s5) :
    (objectEntries item false acc r).out =
      (item s5).out.bind fun p => (objectEntries item false (Value.insertEntry key p.1 acc) p.2).out := by
  rw [objectEntries, skipBlank_eq_mk hsk]
  dsimp only
  rw [if_neg (by decide), if_pos ⟨rfl, rfl⟩, skipBlank_eq_mk hsk2]
  dsimp only
  rw [if_pos rfl]
  dsimp only
  obtain ⟨⟨key', ⟨s4', h4⟩⟩, hk, hke⟩ := map_eq_ok.1 hkey
  obtain ⟨rfl, rfl⟩ := Prod.mk.inj hke
  rw [hk]
  dsimp only
  rw [skipBlank_eq_mk hcolon]
  dsimp only
  rw [if_neg (by decide)]
  cases item s5 with
  | error e => rfl
  | ok p => exact out_widen _ _

/-- Every way entries are read: the closing brace, or an entry (the first one, or one after a
comma) and the entries after it. An entry is a key, a colon and a value read by `item`. -/
theorem objectEntries_eq_ok {first : Bool} {es : List (Bytes × Value)} {rest : Bytes}
    (h : (objectEntries item first acc r).out = .ok (es, rest)) :
    ∃ c s, (skipBlank r).1 = c :: s ∧
      ((c = 125 ∧ es = acc ∧ rest = s) ∨
       ∃ k, ((first = true ∧ c = 34 ∧ k = s) ∨ (first = false ∧ c = 44 ∧ (skipBlank s).1 = 34 :: k)) ∧
         ∃ key s4 s5, (stringBody [] k).out = .ok (key, s4) ∧ (skipBlank s4).1 = 58 :: s5 ∧
           ∃ v s6, (item s5).out = .ok (v, s6) ∧
             (objectEntries item false (Value.insertEntry key v acc) s6).out = .ok (es, rest)) := by
  rw [objectEntries] at h
  split at h
  · cases h
  rename_i c s h1 hsk
  refine ⟨c, s, by rw [hsk], ?_⟩
  split at h
  · rename_i hc
    cases h
    exact .inl ⟨hc, rfl, rfl⟩
  right
  dsimp only at h
  split at h
  · cases h
  · cases h
  rename_i hk0 k hk hkey
  refine ⟨k, ?_, ?_⟩
  · -- where the key starts: right after the brace, or after a comma and white space
    split at hkey
    · rename_i hc
      split at hkey
      · cases hkey
      rename_i c2 s2 h2 hsk2
      split at hkey
      · rename_i hc2
        cases hkey
        exact .inr ⟨by simpa using hc.2, hc.1, by rw [hsk2, hc2]⟩
      split at hkey <;> cases hkey
    split at hkey
    · rename_i hfirst
      split at hkey
      · rename_i hc34
        cases hkey
        exact .inl ⟨hfirst, hc34, rfl⟩
      · cases hkey
    · cases hkey
  split at h
  · cases h
  rename_i key s4 h4 hstr
  split at h
  · cases h
  rename_i c5 s5 h5 hsk5
  split at h
  · cases h
  rename_i hc5
  split at h
  · cases h
  rename_i v s6 h6 hitem
  rw [out_widen] at h
  refine ⟨key, s4, s5, by rw [hstr]; rfl, by rw [hsk5, show c5 = 58 from Decidable.of_not_not hc5], v, s6,
    by rw [hitem]; rfl, h⟩

end Entries

end HandlerKit.Json
