import HandlerKit.Proofs.Json.Faults
import HandlerKit.Json.Tree

/-!
# Documents in memory agree with text

A value is written as compact text, as indented text, or as a document in memory. The three
share one rule for what has no JSON form, so they agree on which values they write and on the
error of every other value.

* `errorOf_treeOf` — building a document fails exactly with the first fault, like writing text
  (`errorOf_writeValue`).
* `valueOf_treeOf` — a representable value is read back from its document exactly: integers
  stay integers, floats keep their bits, dicts their entries. The members of an object are read
  one to one as the entries of a dict (`ReadsAs`), and inserting a member compares the same
  bytes as inserting its entry (`insertMember_readsAs`), so the object is ordered as the dict
  is.

**Theorem (`json_outputs_agree`).** Compact text, indented text and the document succeed on
exactly the carriable values; every other value makes all three fail with the same error, that
of its first fault; and the document of a representable value reads back as the value.
-/

namespace HandlerKit.Json

open Value (spots entriesSpots itemsSpots Representable)

/-! ## Documents fail at the first fault -/

/-- Building the documents of items fails with the first fault among them, when building
each fails with its own. -/
theorem errorOf_treesOf {xs : List Value}
    (h : ∀ x ∈ xs, errorOf (treeOf x) = ((spots x).findSome? Spot.problem?).map unwritable) :
    errorOf (treesOf xs) = ((itemsSpots xs).findSome? Spot.problem?).map unwritable := by
  induction xs with
  | nil => rfl
  | cons v rest ih =>
    rw [itemsSpots, treesOf, List.findSome?_append, Option.map_or, ← h v List.mem_cons_self,
      ← ih fun x hx => h x (List.mem_cons_of_mem v hx)]
    cases treeOf v with
    | error f => rfl
    | ok t => cases treesOf rest <;> rfl

/-- Building members fails with the first fault of the entries, whatever was inserted before,
when building each value's document fails with its own. -/
theorem errorOf_membersOf {es : List (Bytes × Value)}
    (h : ∀ e ∈ es,
      errorOf (treeOf e.2) = ((spots e.2).findSome? Spot.problem?).map unwritable) :
    ∀ acc, errorOf (membersOf es acc) =
      ((entriesSpots es).findSome? Spot.problem?).map unwritable := by
  induction es with
  | nil => intro acc; rfl
  | cons e rest ih =>
    intro acc
    obtain ⟨k, v⟩ := e
    rw [entriesSpots, membersOf]
    cases hk : Utf8.decode? k with
    | none => rw [findSome?_key_of_not_decode hk]; rfl
    | some cs =>
      rw [findSome?_key_of_decode hk, List.findSome?_append, Option.map_or,
        ← h (k, v) List.mem_cons_self]
      cases treeOf v with
      | error f => rfl
      | ok t =>
        rw [← ih (fun e he => h e (List.mem_cons_of_mem _ he))
          (insertMember (String.ofList cs) t acc)]
        rfl

/-- Building a document fails with the first fault of the value. -/
theorem errorOf_treeOf (v : Value) :
    errorOf (treeOf v) = ((spots v).findSome? Spot.problem?).map unwritable := by
  induction v using Value.induction_mem with
  | str b =>
    cases h : Utf8.decode? b <;> simp [treeOf, spots, Spot.problem?, Utf8.isValid, h, errorOf]
  | int n => rfl
  | float x =>
    cases h : x.isFinite <;> simp [treeOf, spots, Spot.problem?, h, errorOf]
  | bool b => rfl
  | null => rfl
  | dict es ih =>
    rw [spots, ← errorOf_membersOf ih [], treeOf]
    cases membersOf es [] <;> rfl
  | list xs ih =>
    rw [spots, ← errorOf_treesOf ih, treeOf]
    cases treesOf xs <;> rfl

theorem errorOf_toTree (v : Value) :
    errorOf (toTree v) = v.firstFault.map (.json ∘ unwritable) := by
  rw [toTree, errorOf_mapError, errorOf_treeOf, Option.map_map]
  rfl

/-! ## Reading a document back -/

theorem numberOf_intNumber (n : Int64) : numberOf (intNumber n) = .ok (.int n) := by
  unfold intNumber
  split
  · rw [numberOf, Int64.ofInt_toInt]
  · rename_i hn
    have hnat : ((n.toInt.toNat : Nat) : Int) = n.toInt := Int.toNat_of_nonneg (by omega)
    have hlt : n.toInt.toNat < Nat.pow 2 63 := by
      have := Int64.toInt_lt n
      rw [show Nat.pow 2 63 = 9223372036854775808 from rfl]
      omega
    rw [numberOf, if_pos hlt, ← Int64.ofInt_eq_ofNat, hnat, Int64.ofInt_toInt]

/-- The bytes of a text decoded from bytes are those bytes. -/
theorem ofString_ofList_of_decode {b : Bytes} {cs : List Char} (h : Utf8.decode? b = some cs) :
    Bytes.ofString (String.ofList cs) = b := by
  rw [Utf8.ofString_eq_encode, String.toList_ofList, Utf8.eq_encode_of_decode? h]

/-- Members read one to one as entries: the bytes of each key are its entry's key, and each
document is read as its entry's value. -/
inductive ReadsAs : List (String × Tree) → List (Bytes × Value) → Prop
  | nil : ReadsAs [] []
  | cons {k : String} {t : Tree} {k' : Bytes} {v : Value} {ms : List (String × Tree)}
      {es : List (Bytes × Value)} (hk : Bytes.ofString k = k') (hv : valueOf t = .ok v)
      (h : ReadsAs ms es) : ReadsAs ((k, t) :: ms) ((k', v) :: es)

/-- Inserting a member and inserting the entry it is read as make the same comparisons. -/
theorem insertMember_readsAs {k : String} {t : Tree} {k' : Bytes} {v : Value}
    (hk : Bytes.ofString k = k') (hv : valueOf t = .ok v) {acc : List (String × Tree)}
    {acc' : List (Bytes × Value)} (h : ReadsAs acc acc') :
    ReadsAs (insertMember k t acc) (Value.insertEntry k' v acc') := by
  induction h with
  | nil => exact .cons hk hv .nil
  | @cons j s j' w ms es hj hw hrest ih =>
    have hcmp : Bytes.compare (Bytes.ofString k) (Bytes.ofString j) = Bytes.compare k' j' := by
      rw [hk, hj]
    rw [insertMember, Value.insertEntry, hcmp]
    cases Bytes.compare k' j' with
    | lt => exact .cons hk hv (.cons hj hw hrest)
    | eq => exact .cons hk hv hrest
    | gt => exact .cons hj hw ih

/-- The members built from entries whose keys are UTF-8 and whose values read back from their
documents are read as the entries inserted one after another. -/
theorem membersOf_readsAs {es : List (Bytes × Value)}
    (hes : ∀ e ∈ es,
      Utf8.isValid e.1 = true ∧ ∃ d, treeOf e.2 = .ok d ∧ valueOf d = .ok e.2) :
    ∀ {acc : List (String × Tree)} {acc' : List (Bytes × Value)}, ReadsAs acc acc' →
      ∃ ms, membersOf es acc = .ok ms ∧
        ReadsAs ms (es.foldl (fun a e => Value.insertEntry e.1 e.2 a) acc') := by
  induction es with
  | nil => exact fun hacc => ⟨_, rfl, hacc⟩
  | cons e es ih =>
    intro acc acc' hacc
    obtain ⟨k, v⟩ := e
    obtain ⟨hk, d, hd, hread⟩ := hes (k, v) List.mem_cons_self
    obtain ⟨cs, hcs⟩ := Option.isSome_iff_exists.1 hk
    obtain ⟨ms, hms, hreads⟩ := ih (fun e he => hes e (List.mem_cons_of_mem _ he))
      (insertMember_readsAs (ofString_ofList_of_decode hcs) hread hacc)
    refine ⟨ms, ?_, hreads⟩
    rw [membersOf, hcs]
    dsimp only
    rw [hd]
    exact hms

/-- Reading members inserts the entries they are read as, one after another. -/
theorem entriesOf_readsAs {ms : List (String × Tree)} {es : List (Bytes × Value)}
    (h : ReadsAs ms es) (acc : List (Bytes × Value)) :
    entriesOf ms acc = .ok (es.foldl (fun a e => Value.insertEntry e.1 e.2 a) acc) := by
  induction h generalizing acc with
  | nil => rfl
  | cons hk hv hrest ih =>
    rw [entriesOf, hv]
    dsimp only
    rw [hk]
    exact ih _

/-- Items whose values read back from their documents are read back in order. -/
theorem treesOf_readsAs {xs : List Value}
    (h : ∀ x ∈ xs, ∃ d, treeOf x = .ok d ∧ valueOf d = .ok x) :
    ∃ ts, treesOf xs = .ok ts ∧ valuesOf ts = .ok xs := by
  induction xs with
  | nil => exact ⟨[], rfl, rfl⟩
  | cons x xs ih =>
    obtain ⟨d, hd, hread⟩ := h x List.mem_cons_self
    obtain ⟨ts, hts, hreads⟩ := ih fun y hy => h y (List.mem_cons_of_mem x hy)
    refine ⟨d :: ts, ?_, ?_⟩
    · rw [treesOf, hd]
      dsimp only
      rw [hts]
    · rw [valuesOf, hread]
      dsimp only
      rw [hreads]

/-- A representable value is read back from its document exactly. -/
theorem valueOf_treeOf {v : Value} (hv : Representable v) :
    ∃ d, treeOf v = .ok d ∧ valueOf d = .ok v := by
  induction hv with
  | str h =>
    obtain ⟨cs, hcs⟩ := Option.isSome_iff_exists.1 h
    refine ⟨.string (String.ofList cs), by rw [treeOf, hcs], ?_⟩
    rw [valueOf, ofString_ofList_of_decode hcs]
  | int n => exact ⟨_, rfl, numberOf_intNumber n⟩
  | float h => exact ⟨_, by rw [treeOf, if_pos h], rfl⟩
  | bool b => exact ⟨_, rfl, rfl⟩
  | null => exact ⟨_, rfl, rfl⟩
  | @dict es hasc hkeys _ ih =>
    obtain ⟨ms, hms, hreads⟩ := membersOf_readsAs (fun e he => ⟨hkeys e he, ih e he⟩) .nil
    -- ascending entries inserted one after another into nothing are the entries themselves
    have hsorted : es.foldl (fun a e => Value.insertEntry e.1 e.2 a) [] = es :=
      (@Value.foldl_insertEntry_of_keysAscend es [] hasc
        fun _ ha => absurd ha List.not_mem_nil).trans (List.nil_append es)
    rw [hsorted] at hreads
    refine ⟨.object ms, by rw [treeOf, hms], ?_⟩
    rw [valueOf, entriesOf_readsAs hreads [], hsorted]
  | @list xs _ ih =>
    obtain ⟨ts, hts, hreads⟩ := treesOf_readsAs ih
    exact ⟨.array ts, by rw [treeOf, hts], by rw [valueOf, hreads]⟩

/-! ## The three outputs agree -/

theorem toTree_ok_iff {v : Value} : (∃ d, toTree v = .ok d) ↔ v.Carriable := by
  rw [← errorOf_eq_none_iff, errorOf_toTree, Option.map_eq_none_iff,
    Value.carriable_iff_firstFault]

/-- Compact text, indented text and the document in memory succeed on exactly the carriable
values; every other value makes all three fail with the same error, that of its first fault,
depth first with each key before its value; and the document of a representable value is read
back as the value itself. -/
theorem json_outputs_agree (v : Value) :
    ((∃ t, render v = .ok t) ↔ v.Carriable) ∧
    ((∃ t, renderPretty v = .ok t) ↔ v.Carriable) ∧
    ((∃ d, toTree v = .ok d) ↔ v.Carriable) ∧
    (¬ v.Carriable → ∃ p, v.firstFault = some p ∧
      render v = .error (.json (unwritable p)) ∧ renderPretty v = .error (.json (unwritable p)) ∧
      toTree v = .error (.json (unwritable p))) ∧
    (Representable v → ∃ d, toTree v = .ok d ∧ ofTree d = .ok v) := by
  refine ⟨render_ok_iff, renderPretty_ok_iff, toTree_ok_iff, fun hv => ?_, fun hv => ?_⟩
  · obtain ⟨p, hp⟩ := Option.ne_none_iff_exists'.1 (mt Value.carriable_iff_firstFault.2 hv)
    refine ⟨p, hp, ?_, ?_, ?_⟩
    · rw [← errorOf_eq_some_iff, errorOf_render, hp]
      rfl
    · rw [← errorOf_eq_some_iff, errorOf_renderPretty, hp]
      rfl
    · rw [← errorOf_eq_some_iff, errorOf_toTree, hp]
      rfl
  · obtain ⟨d, hd, hread⟩ := valueOf_treeOf hv
    exact ⟨d, mapError_eq_ok.2 hd, mapError_eq_ok.2 hread⟩

/-- The dict `{"a": [-3, 1.5, "x"]}` is read back from its document; the list of a string of
the byte `0xff` and a NaN has the string as its first fault, on which all three outputs fail. -/
theorem json_outputs_agree_examples :
    (Representable (.dict [([97], .list [.int (-3), .float ⟨0x3ff8000000000000⟩, .str [120]])]) ∧
      ∃ d, toTree (.dict [([97], .list [.int (-3), .float ⟨0x3ff8000000000000⟩, .str [120]])]) =
          .ok d ∧
        ofTree d = .ok (.dict [([97], .list [.int (-3), .float ⟨0x3ff8000000000000⟩, .str [120]])])) ∧
    (¬ (Value.list [.str [255], .float ⟨0x7ff8000000000000⟩]).Carriable ∧
      ∃ p, (Value.list [.str [255], .float ⟨0x7ff8000000000000⟩]).firstFault = some p ∧
        render (.list [.str [255], .float ⟨0x7ff8000000000000⟩]) = .error (.json (unwritable p)) ∧
        renderPretty (.list [.str [255], .float ⟨0x7ff8000000000000⟩]) =
          .error (.json (unwritable p)) ∧
        toTree (.list [.str [255], .float ⟨0x7ff8000000000000⟩]) = .error (.json (unwritable p))) := by
  have hlist : Representable (.list [.int (-3), .float ⟨0x3ff8000000000000⟩, .str [120]]) := by
    refine .list fun x hx => ?_
    simp only [List.mem_cons, List.not_mem_nil, or_false] at hx
    rcases hx with rfl | rfl | rfl
    · exact .int _
    · exact .float (by decide)
    · exact .str (by decide +kernel)
  have hdict : Representable
      (.dict [([97], .list [.int (-3), .float ⟨0x3ff8000000000000⟩, .str [120]])]) :=
    .dict (List.pairwise_singleton _ _)
      (fun e he => by rw [List.mem_singleton.1 he]; decide +kernel)
      (fun e he => by rw [List.mem_singleton.1 he]; exact hlist)
  have hbad : ¬ (Value.list [.str [255], .float ⟨0x7ff8000000000000⟩]).Carriable := by
    rw [Value.carriable_iff_firstFault]
    decide +kernel
  exact ⟨⟨hdict, (json_outputs_agree _).2.2.2.2 hdict⟩,
    ⟨hbad, (json_outputs_agree _).2.2.2.1 hbad⟩⟩

end HandlerKit.Json
