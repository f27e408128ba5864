import HandlerKit.Proofs.Utf8
import HandlerKit.Json.Reader

/-!
# Values that JSON can carry

A value has a JSON text when every string and every key is UTF-8 and every float is finite
(`Value.Representable`). Its dicts then also keep their keys strictly ascending, as every dict
built by `Value.insertEntry` does.

**Key order.** `Bytes.compare` is a strict total order on byte strings (`compare_swap`,
`compare_trans`, `eq_of_compare_eq`). Hence inserting keeps entries ascending
(`keysAscend_insertEntry`), and entries that already ascend are rebuilt by inserting them one
after another (`foldl_insertEntry_of_keysAscend`): reading an object back gives the same dict.

**Floats of a value** (`Value.floats`). The floats of a tree, depth first, as a list.
-/

namespace HandlerKit

/-! ## Key order -/

namespace Bytes

theorem compare_cons (a b : UInt8) (as bs : Bytes) :
    Bytes.compare (a :: as) (b :: bs) =
      if a < b then .lt else if b < a then .gt else Bytes.compare as bs := rfl

theorem compare_self : ∀ a : Bytes, Bytes.compare a a = .eq
  | [] => rfl
  | a :: as => by
    rw [compare_cons, if_neg (UInt8.lt_irrefl a), if_neg (UInt8.lt_irrefl a), compare_self as]

theorem eq_of_compare_eq : ∀ {a b : Bytes}, Bytes.compare a b = .eq → a = b
  | [], [], _ => rfl
  | [], _ :: _, h => nomatch h
  | _ :: _, [], h => nomatch h
  | a :: as, b :: bs, h => by
    rw [compare_cons] at h
    by_cases hab : a < b
    · rw [if_pos hab] at h
      cases h
    · by_cases hba : b < a
      · rw [if_neg hab, if_pos hba] at h
        cases h
      · rw [if_neg hab, if_neg hba] at h
        have hab' : a = b := by
          rw [UInt8.lt_iff_toNat_lt] at hab hba
          exact UInt8.toNat_inj.1 (by omega)
        rw [hab', eq_of_compare_eq h]

/-- Comparing the other way round swaps less and greater. -/
theorem compare_swap : ∀ {a b : Bytes}, Bytes.compare a b = .lt → Bytes.compare b a = .gt
  | [], [], h => nomatch h
  | [], _ :: _, _ => rfl
  | _ :: _, [], h => nomatch h
  | a :: as, b :: bs, h => by
    rw [compare_cons] at h ⊢
    by_cases hab : a < b
    · rw [if_neg (UInt8.lt_asymm hab), if_pos hab]
    · by_cases hba : b < a
      · rw [if_neg hab, if_pos hba] at h
        cases h
      · rw [if_neg hab, if_neg hba] at h
        rw [if_neg hba, if_neg hab, compare_swap h]

theorem compare_trans : ∀ {a b c : Bytes}, Bytes.compare a b = .lt → Bytes.compare b c = .lt →
    Bytes.compare a c = .lt
  | [], [], _, h, _ => nomatch h
  | [], _ :: _, [], _, h => nomatch h
  | [], _ :: _, _ :: _, _, _ => rfl
  | _ :: _, [], _, h, _ => nomatch h
  | _ :: _, _ :: _, [], _, h => nomatch h
  | a :: as, b :: bs, c :: cs, hab, hbc => by
    rw [compare_cons] at hab hbc ⊢
    -- either the first bytes decide, or they are equal and the tails decide
    have step : ∀ {x y : UInt8} {xs ys : Bytes}, (if x < y then Ordering.lt else if y < x then .gt
        else Bytes.compare xs ys) = .lt → x < y ∨ (x = y ∧ Bytes.compare xs ys = .lt) := by
      intro x y xs ys h
      by_cases hxy : x < y
      · exact .inl hxy
      · by_cases hyx : y < x
        · rw [if_neg hxy, if_pos hyx] at h
          cases h
        · rw [if_neg hxy, if_neg hyx] at h
          rw [UInt8.lt_iff_toNat_lt] at hxy hyx
          exact .inr ⟨UInt8.toNat_inj.1 (by omega), h⟩
    rcases step hab with h1 | ⟨rfl, h1⟩ <;> rcases step hbc with h2 | ⟨rfl, h2⟩
    · rw [if_pos (UInt8.lt_trans h1 h2)]
    · rw [if_pos h1]
    · rw [if_pos h2]
    · rw [if_neg (UInt8.lt_irrefl a), if_neg (UInt8.lt_irrefl a), compare_trans h1 h2]

theorem compare_swap_gt : ∀ {a b : Bytes}, Bytes.compare a b = .gt → Bytes.compare b a = .lt
  | [], [], h => nomatch h
  | [], _ :: _, h => nomatch h
  | _ :: _, [], _ => rfl
  | a :: as, b :: bs, h => by
    rw [compare_cons] at h ⊢
    by_cases hab : a < b
    · rw [if_pos hab] at h
      cases h
    · by_cases hba : b < a
      · rw [if_pos hba]
      · rw [if_neg hab, if_neg hba] at h
        rw [if_neg hba, if_neg hab, compare_swap_gt h]

end Bytes

namespace Value

/-- The keys of some entries ascend strictly. -/
def KeysAscend (es : List (Bytes × Value)) : Prop :=
  es.Pairwise fun a b => Bytes.compare a.1 b.1 = .lt

/-- An entry whose key is above every key of some entries goes after them. -/
theorem insertEntry_of_lt {k : Bytes} {v : Value} :
    ∀ {acc : List (Bytes × Value)}, (∀ e ∈ acc, Bytes.compare e.1 k = .lt) →
      insertEntry k v acc = acc ++ [(k, v)]
  | [], _ => rfl
  | (k', v') :: rest, h => by
    rw [insertEntry, Bytes.compare_swap (h (k', v') List.mem_cons_self),
      insertEntry_of_lt fun e he => h e (List.mem_cons_of_mem _ he)]
    rfl

theorem mem_insertEntry {k : Bytes} {v : Value} {e : Bytes × Value} :
    ∀ {acc : List (Bytes × Value)}, e ∈ insertEntry k v acc → e = (k, v) ∨ e ∈ acc
  | [], h => .inl (List.mem_singleton.1 h)
  | (k', v') :: rest, h => by
    rw [insertEntry] at h
    split at h
    · rcases List.mem_cons.1 h with h | h
      · exact .inl h
      · exact .inr h
    · rcases List.mem_cons.1 h with h | h
      · exact .inl h
      · exact .inr (List.mem_cons_of_mem _ h)
    · rcases List.mem_cons.1 h with h | h
      · exact .inr (h ▸ List.mem_cons_self)
      · rcases mem_insertEntry h with h | h
        · exact .inl h
        · exact .inr (List.mem_cons_of_mem _ h)

/-- Inserting keeps the keys ascending. -/
theorem keysAscend_insertEntry {k : Bytes} {v : Value} :
    ∀ {acc : List (Bytes × Value)}, KeysAscend acc → KeysAscend (insertEntry k v acc)
  | [], _ => List.pairwise_singleton _ _
  | (k', v') :: rest, h => by
    rw [KeysAscend, List.pairwise_cons] at h
    obtain ⟨hk', hrest⟩ := h
    rw [insertEntry]
    split
    · rename_i hlt
      refine List.pairwise_cons.2 ⟨fun e he => ?_, List.pairwise_cons.2 ⟨hk', hrest⟩⟩
      rcases List.mem_cons.1 he with rfl | he
      · exact hlt
      · exact Bytes.compare_trans hlt (hk' e he)
    · rename_i heq
      rw [Bytes.eq_of_compare_eq heq]
      exact List.pairwise_cons.2 ⟨hk', hrest⟩
    · rename_i hgt
      refine List.pairwise_cons.2 ⟨fun e he => ?_, keysAscend_insertEntry hrest⟩
      rcases mem_insertEntry he with rfl | he
      · exact Bytes.compare_swap_gt hgt
      · exact hk' e he

/-- Inserting ascending entries one after another, after entries below all of them, appends
them. -/
theorem foldl_insertEntry_of_keysAscend :
    ∀ {es acc : List (Bytes × Value)}, KeysAscend es →
      (∀ a ∈ acc, ∀ e ∈ es, Bytes.compare a.1 e.1 = .lt) →
      es.foldl (fun acc e => insertEntry e.1 e.2 acc) acc = acc ++ es
  | [], acc, _, _ => by simp
  | (k, v) :: es, acc, hes, hacc => by
    rw [KeysAscend, List.pairwise_cons] at hes
    rw [List.foldl_cons, insertEntry_of_lt fun a ha => hacc a ha (k, v) List.mem_cons_self]
    rw [foldl_insertEntry_of_keysAscend hes.2 ?_, List.append_assoc]
    · rfl
    · intro a ha e he
      rcases List.mem_append.1 ha with ha | ha
      · exact hacc a ha e (List.mem_cons_of_mem _ he)
      · rw [List.mem_singleton.1 ha]
        exact hes.1 e he

/-! ## Representable values -/

/-- A value JSON can carry: every string and key UTF-8, every float finite, and every dict's
keys strictly ascending. -/
inductive Representable : Value → Prop
  | str {b : Bytes} (h : Utf8.isValid b = true) : Representable (.str b)
  | int (n : Int64) : Representable (.int n)
  | float {x : Binary64} (h : x.isFinite = true) : Representable (.float x)
  | bool (b : Bool) : Representable (.bool b)
  | null : Representable .null
  | dict {es : List (Bytes × Value)} (hk : KeysAscend es) (hkeys : ∀ e ∈ es, Utf8.isValid e.1 = true)
      (hvals : ∀ e ∈ es, Representable e.2) : Representable (.dict es)
  | list {xs : List Value} (hx : ∀ x ∈ xs, Representable x) : Representable (.list xs)

/-! ## Building representable containers -/

theorem Representable.reverse {xs : List Value} (h : Representable (.list xs)) :
    Representable (.list xs.reverse) := by
  cases h with
  | list hx => exact .list fun x hx' => hx x (List.mem_reverse.1 hx')

theorem Representable.cons {x : Value} {xs : List Value} (h : Representable (.list xs))
    (hx : Representable x) : Representable (.list (x :: xs)) := by
  cases h with
  | list hxs => exact .list fun y hy => (List.mem_cons.1 hy).elim (fun h => h ▸ hx) (hxs y)

/-- Inserting an entry of a UTF-8 key and a representable value keeps a dict representable. -/
theorem Representable.insertEntry {k : Bytes} {v : Value} {es : List (Bytes × Value)}
    (h : Representable (.dict es)) (hk : Utf8.isValid k = true) (hv : Representable v) :
    Representable (.dict (Value.insertEntry k v es)) := by
  cases h with
  | dict hasc hkeys hvals =>
    refine .dict (keysAscend_insertEntry hasc) (fun e he => ?_) (fun e he => ?_)
    · rcases mem_insertEntry he with rfl | he
      · exact hk
      · exact hkeys e he
    · rcases mem_insertEntry he with rfl | he
      · exact hv
      · exact hvals e he

mutual
/-- The floats of a value, depth first. -/
def floats : Value → List Binary64
  | float x => [x]
  | dict es => entriesFloats es
  | list xs => itemsFloats xs
  | _ => []

/-- The floats of the values of some entries. -/
def entriesFloats : List (Bytes × Value) → List Binary64
  | [] => []
  | (_, v) :: rest => floats v ++ entriesFloats rest

/-- The floats of some items. -/
def itemsFloats : List Value → List Binary64
  | [] => []
  | v :: rest => floats v ++ itemsFloats rest
end

theorem floats_of_mem_items {x : Value} {y : Binary64} :
    ∀ {xs : List Value}, x ∈ xs → y ∈ floats x → y ∈ floats (.list xs)
  | _ :: rest, hx, hy => by
    rw [floats, itemsFloats, List.mem_append]
    rcases List.mem_cons.1 hx with rfl | hx
    · exact .inl hy
    · exact .inr (floats_of_mem_items hx hy)

theorem floats_of_mem_entries {e : Bytes × Value} {y : Binary64} :
    ∀ {es : List (Bytes × Value)}, e ∈ es → y ∈ floats e.2 → y ∈ floats (.dict es)
  | _ :: rest, he, hy => by
    rw [floats, entriesFloats, List.mem_append]
    rcases List.mem_cons.1 he with rfl | he
    · exact .inl hy
    · exact .inr (floats_of_mem_entries he hy)

theorem depth_le_of_mem_items {x : Value} : ∀ {xs : List Value}, x ∈ xs → x.depth ≤ itemsDepth xs
  | _ :: rest, hx => by
    rw [itemsDepth]
    rcases List.mem_cons.1 hx with rfl | hx
    · exact Nat.le_max_left _ _
    · exact Nat.le_trans (depth_le_of_mem_items hx) (Nat.le_max_right _ _)

theorem depth_le_of_mem_entries {e : Bytes × Value} :
    ∀ {es : List (Bytes × Value)}, e ∈ es → e.2.depth ≤ entriesDepth es
  | _ :: rest, he => by
    rw [entriesDepth]
    rcases List.mem_cons.1 he with rfl | he
    · exact Nat.le_max_left _ _
    · exact Nat.le_trans (depth_le_of_mem_entries he) (Nat.le_max_right _ _)

end Value

end HandlerKit
