import HandlerKit.Proofs.Json.Writing

/-!
# Where writing JSON fails

JSON has no form for a string or key that is not UTF-8, nor for an infinite or NaN float. The
places of a value where writing can fail are its *spots*: its strings, keys and floats, listed
depth first, each key before its value, entries and items in order (`Value.spots`). A spot is
bad when it breaks its rule (`Spot.problem?`).

* `Value.Carriable` — no spot is bad: every string and key is UTF-8 and every float finite.
* `Value.firstFault` — the rule broken by the first bad spot.

**Theorem (`errorOf_writeValue`).** Writing text, in either layout and at any level, fails
exactly with the first fault, and succeeds exactly on carriable values (`render_ok_iff`,
`renderPretty_ok_iff`). Its proof, and every other proof about a value and its members, goes
by `Value.induction_mem`: a container may use the statement for each of its members.
-/

namespace HandlerKit

namespace Json

/-- A place of a value where writing JSON can fail. -/
inductive Spot where
  | str (b : Bytes)
  | key (k : Bytes)
  | float (x : Binary64)

/-- The rule a spot breaks, if it breaks one. -/
def Spot.problem? : Spot → Option Problem
  | .str b => if Utf8.isValid b then none else some .stringNotUtf8
  | .key k => if Utf8.isValid k then none else some .keyNotUtf8
  | .float x => if x.isFinite then none else some (.nonFinite x)

end Json

namespace Value

open Json (Spot)

mutual
/-- The strings, keys and floats of a value, depth first, each key before its value. -/
def spots : Value → List Spot
  | str b => [.str b]
  | float x => [.float x]
  | dict es => entriesSpots es
  | list xs => itemsSpots xs
  | _ => []

/-- The spots of some entries, in order. -/
def entriesSpots : List (Bytes × Value) → List Spot
  | [] => []
  | (k, v) :: rest => .key k :: (spots v ++ entriesSpots rest)

/-- The spots of some items, in order. -/
def itemsSpots : List Value → List Spot
  | [] => []
  | v :: rest => spots v ++ itemsSpots rest
end

/-- Every string and key of a value is UTF-8 and every float finite. -/
def Carriable (v : Value) : Prop := ∀ s ∈ v.spots, s.problem? = none

/-- The rule broken by the first bad spot of a value. -/
def firstFault (v : Value) : Option Json.Problem := v.spots.findSome? Spot.problem?

theorem carriable_iff_firstFault {v : Value} : v.Carriable ↔ v.firstFault = none :=
  List.findSome?_eq_none_iff.symm

theorem carriable_str_iff {b : Bytes} : (str b).Carriable ↔ Utf8.isValid b = true := by
  simp [Carriable, spots, Spot.problem?]

/-- A dict is carriable when each key is UTF-8 and each value carriable. -/
theorem carriable_dict_iff {es : List (Bytes × Value)} :
    (dict es).Carriable ↔ ∀ e ∈ es, Utf8.isValid e.1 = true ∧ e.2.Carriable := by
  induction es with
  | nil => simp [Carriable, spots, entriesSpots]
  | cons e rest ih =>
    obtain ⟨k, v⟩ := e
    have hk : (Spot.key k).problem? = none ↔ Utf8.isValid k = true := by
      simp [Spot.problem?]
    simp only [Carriable, spots, entriesSpots, List.forall_mem_cons, List.forall_mem_append]
      at ih ⊢
    rw [ih, hk, and_assoc]

/-- Induction over values where a container may use the hypothesis for each of its members.
It is proved once, by recursion on the size of the value, so that statements about a value and
its members need no mutual recursion. -/
theorem induction_mem {motive : Value → Prop} (str : ∀ b, motive (.str b))
    (int : ∀ n, motive (.int n)) (float : ∀ x, motive (.float x))
    (bool : ∀ b, motive (.bool b))
    (null : motive .null) (dict : ∀ es, (∀ e ∈ es, motive e.2) → motive (.dict es))
    (list : ∀ xs, (∀ x ∈ xs, motive x) → motive (.list xs)) (v : Value) : motive v :=
  match v with
  | .str b => str b
  | .int n => int n
  | .float x => float x
  | .bool b => bool b
  | .null => null
  | .dict es => dict es fun e _ => induction_mem str int float bool null dict list e.2
  | .list xs => list xs fun x _ => induction_mem str int float bool null dict list x
termination_by sizeOf v
decreasing_by
  · -- a member's value is smaller than the member, which is smaller than the entries
    rename_i he
    obtain ⟨k, w⟩ := e
    have := List.sizeOf_lt_of_mem he
    simp only [Prod.mk.sizeOf_spec] at this
    simp only [Value.dict.sizeOf_spec]
    omega
  · rename_i hx
    have := List.sizeOf_lt_of_mem hx
    simp only [Value.list.sizeOf_spec]
    omega

end Value

namespace Json

open Value (spots entriesSpots itemsSpots)

/-! ## Spots of one node -/

/-- A key that is UTF-8 adds no fault before the spots after it. -/
theorem findSome?_key_of_decode {k : Bytes} {cs : List Char} (h : Utf8.decode? k = some cs)
    (l : List Spot) : (Spot.key k :: l).findSome? Spot.problem? = l.findSome? Spot.problem? := by
  have hk : (Spot.key k).problem? = none := by
    simp [Spot.problem?, Utf8.isValid, h]
  rw [List.findSome?_cons, hk]

theorem findSome?_key_of_not_decode {k : Bytes} (h : Utf8.decode? k = none) (l : List Spot) :
    (Spot.key k :: l).findSome? Spot.problem? = some .keyNotUtf8 := by
  have hk : (Spot.key k).problem? = some .keyNotUtf8 := by
    simp [Spot.problem?, Utf8.isValid, h]
  rw [List.findSome?_cons, hk]

/-! ## Writing fails at the first fault -/

/-- Writing items fails with the first fault of their spots, when writing each fails with its
own. -/
theorem errorOf_writeItems {pretty : Bool} {xs : List Value}
    (h : ∀ x ∈ xs, ∀ level, errorOf (writeValue pretty level x) =
      ((spots x).findSome? Spot.problem?).map unwritable) :
    ∀ level first, errorOf (writeItems pretty level first xs) =
      ((itemsSpots xs).findSome? Spot.problem?).map unwritable := by
  induction xs with
  | nil => intro level first; rfl
  | cons v rest ih =>
    intro level first
    rw [itemsSpots, writeItems, List.findSome?_append, Option.map_or,
      ← h v List.mem_cons_self level,
      ← ih (fun x hx => h x (List.mem_cons_of_mem v hx)) level false]
    cases writeValue pretty level v with
    | error f => rfl
    | ok vt => cases writeItems pretty level false rest <;> rfl

/-- Writing entries fails with the first fault of their spots, when writing each value fails
with its own. -/
theorem errorOf_writeEntries {pretty : Bool} {es : List (Bytes × Value)}
    (h : ∀ e ∈ es, ∀ level, errorOf (writeValue pretty level e.2) =
      ((spots e.2).findSome? Spot.problem?).map unwritable) :
    ∀ level first, errorOf (writeEntries pretty level first es) =
      ((entriesSpots es).findSome? Spot.problem?).map unwritable := by
  induction es with
  | nil => intro level first; rfl
  | cons e rest ih =>
    intro level first
    obtain ⟨k, v⟩ := e
    rw [entriesSpots, writeEntries]
    cases hk : Utf8.decode? k with
    | none => rw [findSome?_key_of_not_decode hk]; rfl
    | some cs =>
      -- the key is good: the fault is the value's, else that of the entries after it
      rw [findSome?_key_of_decode hk, List.findSome?_append, Option.map_or,
        ← h (k, v) List.mem_cons_self level,
        ← ih (fun e he => h e (List.mem_cons_of_mem _ he)) level false]
      cases writeValue pretty level v with
      | error f => rfl
      | ok vt => cases writeEntries pretty level false rest <;> rfl

/-- Writing a value fails with its first fault, placed nowhere. -/
theorem errorOf_writeValue (pretty : Bool) (v : Value) : ∀ level,
    errorOf (writeValue pretty level v) = ((spots v).findSome? Spot.problem?).map unwritable := by
  induction v using Value.induction_mem with
  | str b =>
    intro level
    cases h : Utf8.decode? b <;> simp [writeValue, spots, Spot.problem?, Utf8.isValid, h, errorOf]
  | int n => intro level; rfl
  | float x =>
    intro level
    cases h : x.isFinite <;> simp [writeValue, spots, Spot.problem?, h, errorOf]
  | bool b => intro level; rfl
  | null => intro level; rfl
  | dict es ih =>
    intro level
    cases es with
    | nil => rfl
    | cons e es =>
      rw [spots, ← errorOf_writeEntries ih (level + 1) true, writeValue]
      cases writeEntries pretty (level + 1) true (e :: es) <;> rfl
  | list xs ih =>
    intro level
    cases xs with
    | nil => rfl
    | cons x xs =>
      rw [spots, ← errorOf_writeItems ih (level + 1) true, writeValue]
      cases writeItems pretty (level + 1) true (x :: xs) <;> rfl

theorem errorOf_render (v : Value) :
    errorOf (render v) = v.firstFault.map (.json ∘ unwritable) := by
  rw [render, errorOf_mapError, errorOf_writeValue, Option.map_map]
  rfl

theorem errorOf_renderPretty (v : Value) :
    errorOf (renderPretty v) = v.firstFault.map (.json ∘ unwritable) := by
  rw [renderPretty, errorOf_mapError, errorOf_writeValue, Option.map_map]
  rfl

/-- A value has a compact text exactly when it is carriable. -/
theorem render_ok_iff {v : Value} : (∃ t, render v = .ok t) ↔ v.Carriable := by
  rw [← errorOf_eq_none_iff, errorOf_render, Option.map_eq_none_iff,
    Value.carriable_iff_firstFault]

/-- A value has an indented text exactly when it is carriable. -/
theorem renderPretty_ok_iff {v : Value} : (∃ t, renderPretty v = .ok t) ↔ v.Carriable := by
  rw [← errorOf_eq_none_iff, errorOf_renderPretty, Option.map_eq_none_iff,
    Value.carriable_iff_firstFault]

end Json

end HandlerKit
