import HandlerKit.Proofs.Json.Representable
import HandlerKit.Proofs.Json.Reading

/-!
# Writing JSON text

**Layout** (`ofString_lead`, `ofString_closing`). Between the members of a container the
writer puts a comma where one is due and, in pretty output, a line break and blanks; before
the closing bracket only the line break and blanks. All of that is white space to the reader
(`blanks_layout`).

**Shapes** (`writeItems_cons_eq_ok`, `writeEntries_cons_eq_ok`). The text of a container's
members is the first member's text, then the text of the others, each after its separator;
an entry is a quoted key, a colon and the value's text. After the first member the text is
empty or starts with a comma (`writeItems_rest`, `writeEntries_rest`).

**Representable values have a text** (`writeValue_ok`). Writing fails only on a string or key
that is not UTF-8 and on a float that is not finite, so it never fails on a representable
value, in either layout and at any level (`render_ok`, `renderPretty_ok`).
-/

namespace HandlerKit.Json

open Value (Representable)

/-! ## Layout -/

theorem ofString_indentText (level : Nat) :
    Bytes.ofString (indentText level) = List.replicate (2 * level) 32 := by
  rw [indentText, Utf8.ofString_ofList_ascii (fun c hc => by rw [(List.mem_replicate.1 hc).2]; decide),
    List.map_replicate]
  rfl

/-- The line break and indentation of pretty output are white space. -/
theorem blanks_layout (pretty : Bool) (level : Nat) :
    Blanks (Bytes.ofString (if pretty then "\n" ++ indentText level else "")) := by
  intro b hb
  cases pretty with
  | false =>
    rw [if_neg (by decide), Utf8.ofString_empty] at hb
    cases hb
  | true =>
    rw [if_pos rfl, Utf8.ofString_append, ofString_indentText,
      show Bytes.ofString "\n" = [10] by rw [Utf8.ofString_eq_encode]; rfl] at hb
    rcases List.mem_cons.1 hb with rfl | hb
    · rfl
    · rw [(List.mem_replicate.1 hb).2]
      rfl

theorem ofString_lead (pretty first : Bool) (level : Nat) :
    Bytes.ofString (lead pretty first level) =
      (if first then [] else [44]) ++ Bytes.ofString (if pretty then "\n" ++ indentText level else "") := by
  rw [lead, Utf8.ofString_append]
  congr 1
  cases first
  · show Bytes.ofString "," = [44]
    rw [Utf8.ofString_eq_encode]
    rfl
  · exact Utf8.ofString_empty

theorem ofString_closing (pretty : Bool) (level : Nat) (mark : String) :
    Bytes.ofString (closing pretty level mark) =
      Bytes.ofString (if pretty then "\n" ++ indentText (level - 1) else "") ++ Bytes.ofString mark := by
  rw [closing, Utf8.ofString_append]

/-! ## Shapes of the written text -/

section Shapes

variable {pretty : Bool} {level : Nat} {first : Bool} {body : String}

theorem writeItems_cons_eq_ok {x : Value} {xs : List Value}
    (h : writeItems pretty level first (x :: xs) = .ok body) :
    ∃ vt more, writeValue pretty level x = .ok vt ∧ writeItems pretty level false xs = .ok more ∧
      body = lead pretty first level ++ vt ++ more := by
  rw [writeItems] at h
  cases hv : writeValue pretty level x with
  | error f => rw [hv] at h; cases h
  | ok vt =>
    rw [hv] at h
    dsimp only at h
    cases hm : writeItems pretty level false xs with
    | error f => rw [hm] at h; cases h
    | ok more =>
      rw [hm] at h
      exact ⟨vt, more, rfl, rfl, (Except.ok.inj h).symm⟩

theorem writeEntries_cons_eq_ok {k : Bytes} {v : Value} {es : List (Bytes × Value)}
    (h : writeEntries pretty level first ((k, v) :: es) = .ok body) :
    ∃ cs vt more, Utf8.decode? k = some cs ∧ writeValue pretty level v = .ok vt ∧
      writeEntries pretty level false es = .ok more ∧
      body = lead pretty first level ++ quoteText cs ++ (if pretty then ": " else ":") ++ vt ++ more := by
  rw [writeEntries] at h
  cases hk : Utf8.decode? k with
  | none => rw [hk] at h; cases h
  | some cs =>
    rw [hk] at h
    dsimp only at h
    cases hv : writeValue pretty level v with
    | error f => rw [hv] at h; cases h
    | ok vt =>
      rw [hv] at h
      dsimp only at h
      cases hm : writeEntries pretty level false es with
      | error f => rw [hm] at h; cases h
      | ok more =>
        rw [hm] at h
        exact ⟨cs, vt, more, rfl, rfl, rfl, (Except.ok.inj h).symm⟩

/-- After the first item the text is empty or starts with a comma. -/
theorem writeItems_rest {xs : List Value} (h : writeItems pretty level false xs = .ok body) :
    Bytes.ofString body = [] ∨ ∃ t, Bytes.ofString body = 44 :: t := by
  cases xs with
  | nil =>
    cases h
    exact .inl Utf8.ofString_empty
  | cons x xs =>
    obtain ⟨vt, more, -, -, rfl⟩ := writeItems_cons_eq_ok h
    rw [Utf8.ofString_append, Utf8.ofString_append, ofString_lead, if_neg (by decide)]
    exact .inr ⟨_, rfl⟩

/-- After the first entry the text is empty or starts with a comma. -/
theorem writeEntries_rest {es : List (Bytes × Value)}
    (h : writeEntries pretty level false es = .ok body) :
    Bytes.ofString body = [] ∨ ∃ t, Bytes.ofString body = 44 :: t := by
  cases es with
  | nil =>
    cases h
    exact .inl Utf8.ofString_empty
  | cons e es =>
    obtain ⟨cs, vt, more, -, -, -, rfl⟩ := writeEntries_cons_eq_ok h
    simp only [Utf8.ofString_append, ofString_lead, if_neg (show ¬ (false = true) by decide),
      List.append_assoc]
    exact .inr ⟨_, rfl⟩

end Shapes

/-! ## Representable values have a text -/

theorem writeItems_ok {pretty : Bool} {level : Nat} :
    ∀ {xs : List Value} (first : Bool), (∀ x ∈ xs, ∃ t, writeValue pretty level x = .ok t) →
      ∃ body, writeItems pretty level first xs = .ok body
  | [], _, _ => ⟨"", rfl⟩
  | x :: xs, first, h => by
    obtain ⟨vt, hvt⟩ := h x List.mem_cons_self
    obtain ⟨more, hmore⟩ := writeItems_ok false fun y hy => h y (List.mem_cons_of_mem x hy)
    refine ⟨lead pretty first level ++ vt ++ more, ?_⟩
    rw [writeItems, hvt]
    dsimp only
    rw [hmore]

theorem writeEntries_ok {pretty : Bool} {level : Nat} :
    ∀ {es : List (Bytes × Value)} (first : Bool), (∀ e ∈ es, Utf8.isValid e.1 = true) →
      (∀ e ∈ es, ∃ t, writeValue pretty level e.2 = .ok t) →
      ∃ body, writeEntries pretty level first es = .ok body
  | [], _, _, _ => ⟨"", rfl⟩
  | (k, v) :: es, first, hk, hv => by
    obtain ⟨cs, hcs⟩ := Option.isSome_iff_exists.1 (hk (k, v) List.mem_cons_self)
    obtain ⟨vt, hvt⟩ := hv (k, v) List.mem_cons_self
    obtain ⟨more, hmore⟩ := writeEntries_ok false (fun e he => hk e (List.mem_cons_of_mem _ he))
      (fun e he => hv e (List.mem_cons_of_mem _ he))
    refine ⟨lead pretty first level ++ quoteText cs ++ (if pretty then ": " else ":") ++ vt ++ more, ?_⟩
    rw [writeEntries, hcs]
    dsimp only
    rw [hvt]
    dsimp only
    rw [hmore]

/-- A representable value has a text, in either layout and at any level. -/
theorem writeValue_ok {v : Value} (hv : Representable v) (pretty : Bool) :
    ∀ level, ∃ t, writeValue pretty level v = .ok t := by
  induction hv with
  | str h =>
    intro level
    obtain ⟨cs, hcs⟩ := Option.isSome_iff_exists.1 h
    exact ⟨_, by rw [writeValue, hcs]⟩
  | int n => exact fun _ => ⟨_, rfl⟩
  | float h => exact fun _ => ⟨_, by rw [writeValue, if_pos h]⟩
  | bool b => exact fun _ => ⟨_, rfl⟩
  | null => exact fun _ => ⟨_, rfl⟩
  | @dict es _ hkeys _ ih =>
    intro level
    cases es with
    | nil => exact ⟨_, rfl⟩
    | cons e es =>
      obtain ⟨body, hbody⟩ := writeEntries_ok true hkeys fun e he => ih e he (level + 1)
      exact ⟨_, by rw [writeValue, hbody]⟩
  | @list xs _ ih =>
    intro level
    cases xs with
    | nil => exact ⟨_, rfl⟩
    | cons x xs =>
      obtain ⟨body, hbody⟩ := writeItems_ok true fun x hx => ih x hx (level + 1)
      exact ⟨_, by rw [writeValue, hbody]⟩

theorem render_ok {v : Value} (hv : Representable v) : ∃ t, render v = .ok t := by
  obtain ⟨t, ht⟩ := writeValue_ok hv false 0
  exact ⟨t, mapError_eq_ok.2 ht⟩

theorem renderPretty_ok {v : Value} (hv : Representable v) : ∃ t, renderPretty v = .ok t := by
  obtain ⟨t, ht⟩ := writeValue_ok hv true 0
  exact ⟨t, mapError_eq_ok.2 ht⟩

end HandlerKit.Json
