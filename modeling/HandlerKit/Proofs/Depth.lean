import HandlerKit.Proofs.Json.Representable

/-!
# Depth of values and dicts built by insertion

`Value.depth` counts a scalar or an empty container as 1 and a container as one more than its
deepest member. A reader that counts nesting levels sees the frames or brackets of a text, and
a dict keeps only some of them, so two facts relate the count to the depth.

**Bounds by members.** A container is within a bound exactly when each member is within one
less (`itemsDepth_le_iff`, `entriesDepth_le_iff`).

**Dicts built by insertion.** Inserting pairs one after another keeps only entries that were
given or inserted (`mem_foldl_insertEntry`), and when no key repeats it keeps every pair
(`mem_foldl_insertEntry_of_nodup`). A dict read from pairs with distinct keys therefore has a
member as deep as each pair's value; with a repeated key the earlier value is gone, and with it
perhaps the deepest one.
-/

namespace HandlerKit.Value

/-! ## Bounds by members -/

theorem one_le_depth (v : Value) : 1 ≤ v.depth := by
  cases v <;> simp [depth]

theorem depth_list (xs : List Value) : (list xs).depth = 1 + itemsDepth xs := by
  rw [depth]

theorem depth_dict (es : List (Bytes × Value)) : (dict es).depth = 1 + entriesDepth es := by
  rw [depth]

theorem itemsDepth_le_iff {n : Nat} : ∀ {xs : List Value}, itemsDepth xs ≤ n ↔ ∀ x ∈ xs, x.depth ≤ n
  | [] => by simp [itemsDepth]
  | x :: xs => by
    rw [itemsDepth, Nat.max_le, itemsDepth_le_iff, List.forall_mem_cons]

theorem entriesDepth_le_iff {n : Nat} :
    ∀ {es : List (Bytes × Value)}, entriesDepth es ≤ n ↔ ∀ e ∈ es, e.2.depth ≤ n
  | [] => by simp [entriesDepth]
  | (k, v) :: es => by
    rw [entriesDepth, Nat.max_le, entriesDepth_le_iff, List.forall_mem_cons]

theorem lt_itemsDepth_iff {n : Nat} {xs : List Value} : n < itemsDepth xs ↔ ∃ x ∈ xs, n < x.depth := by
  rw [← Nat.not_le, itemsDepth_le_iff]
  simp

theorem lt_entriesDepth_iff {n : Nat} {es : List (Bytes × Value)} :
    n < entriesDepth es ↔ ∃ e ∈ es, n < e.2.depth := by
  rw [← Nat.not_le, entriesDepth_le_iff]
  simp

/-! ## Dicts built by insertion -/

theorem mem_insertEntry_self (k : Bytes) (v : Value) :
    ∀ acc : List (Bytes × Value), (k, v) ∈ insertEntry k v acc
  | [] => List.mem_singleton_self _
  | (k', v') :: rest => by
    rw [insertEntry]
    split
    · exact List.mem_cons_self
    · exact List.mem_cons_self
    · exact List.mem_cons_of_mem _ (mem_insertEntry_self k v rest)

/-- Inserting an entry keeps every entry of another key. -/
theorem mem_insertEntry_of_ne {k : Bytes} {v : Value} {e : Bytes × Value} (hk : e.1 ≠ k) :
    ∀ {acc : List (Bytes × Value)}, e ∈ acc → e ∈ insertEntry k v acc
  | (k', v') :: rest, he => by
    rw [insertEntry]
    split
    · exact List.mem_cons_of_mem _ he
    · rename_i heq
      rcases List.mem_cons.1 he with rfl | he
      · exact absurd (Bytes.eq_of_compare_eq heq).symm hk
      · exact List.mem_cons_of_mem _ he
    · rcases List.mem_cons.1 he with rfl | he
      · exact List.mem_cons_self
      · exact List.mem_cons_of_mem _ (mem_insertEntry_of_ne hk he)

/-- Inserting pairs one after another keeps only entries that were given or inserted. -/
theorem mem_foldl_insertEntry {e : Bytes × Value} :
    ∀ {ps acc : List (Bytes × Value)},
      e ∈ ps.foldl (fun acc p => insertEntry p.1 p.2 acc) acc → e ∈ acc ∨ e ∈ ps
  | [], _, h => .inl h
  | _ :: _, _, h => by
    rw [List.foldl_cons] at h
    rcases mem_foldl_insertEntry h with h | h
    · rcases mem_insertEntry h with rfl | h
      · exact .inr List.mem_cons_self
      · exact .inl h
    · exact .inr (List.mem_cons_of_mem _ h)

/-- An entry survives the insertion of pairs of other keys. -/
theorem mem_foldl_insertEntry_of_fresh {e : Bytes × Value} :
    ∀ {ps acc : List (Bytes × Value)}, e ∈ acc → (∀ p ∈ ps, p.1 ≠ e.1) →
      e ∈ ps.foldl (fun acc p => insertEntry p.1 p.2 acc) acc
  | [], _, he, _ => he
  | p :: _, _, he, hps => by
    rw [List.foldl_cons]
    exact mem_foldl_insertEntry_of_fresh
      (mem_insertEntry_of_ne (fun h => hps p List.mem_cons_self h.symm) he)
      fun q hq => hps q (List.mem_cons_of_mem _ hq)

/-- Inserting pairs whose keys do not repeat keeps every pair. -/
theorem mem_foldl_insertEntry_of_nodup {e : Bytes × Value} :
    ∀ {ps acc : List (Bytes × Value)}, (ps.map Prod.fst).Nodup → e ∈ ps →
      e ∈ ps.foldl (fun acc p => insertEntry p.1 p.2 acc) acc
  | p :: ps, acc, hnd, he => by
    rw [List.map_cons, List.nodup_cons] at hnd
    rw [List.foldl_cons]
    rcases List.mem_cons.1 he with rfl | he
    · refine mem_foldl_insertEntry_of_fresh (mem_insertEntry_self _ _ acc) fun q hq hqe => ?_
      exact hnd.1 (hqe ▸ List.mem_map_of_mem hq)
    · exact mem_foldl_insertEntry_of_nodup hnd.2 he

/-- The members of a dict built from pairs are among the pairs. -/
theorem mem_of_mem_entriesOfPairs {e : Bytes × Value} {ps : List (Bytes × Value)}
    (h : e ∈ entriesOfPairs ps) : e ∈ ps :=
  (mem_foldl_insertEntry h).resolve_left List.not_mem_nil

/-- A dict built from pairs with distinct keys has every pair as a member. -/
theorem mem_entriesOfPairs_of_nodup {e : Bytes × Value} {ps : List (Bytes × Value)}
    (hnd : (ps.map Prod.fst).Nodup) (h : e ∈ ps) : e ∈ entriesOfPairs ps :=
  mem_foldl_insertEntry_of_nodup hnd h

/-- What holds of every member of a dict built from pairs with distinct keys holds of every
pair, and conversely. -/
theorem forall_mem_entriesOfPairs {P : Bytes × Value → Prop} {ps : List (Bytes × Value)}
    (hnd : (ps.map Prod.fst).Nodup) : (∀ e ∈ entriesOfPairs ps, P e) ↔ ∀ e ∈ ps, P e :=
  ⟨fun h e he => h e (mem_entriesOfPairs_of_nodup hnd he),
    fun h e he => h e (mem_of_mem_entriesOfPairs he)⟩

end HandlerKit.Value
