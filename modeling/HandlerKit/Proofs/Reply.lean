import HandlerKit.Proofs.Tokens

/-!
# Replies are framed exactly and decode uniquely

A reply is `<sender> <len>:<connections>, <payload>`. The connection field and the payload may
hold any bytes, blanks, colons and `", "` included, so a reply is read back only through the
two devices of `HandlerKit.Proofs.Tokens`: the sender ends at the first blank, and the
decimal length ends at the first colon and then fixes how many bytes the connection field
takes.

* `frame_eq` — framing succeeds exactly for a token sender, with the bytes laid out as above.
* `frame_inj` — two valid replies with equal bytes have equal senders, connection fields and
  payloads.
* `frameMany_eq_frame` and the `frameMany_*` error lemmas — a reply to several connections
  checks the list for emptiness, then its length against 128, then each id from the left,
  then the sender, and reports the first check that fails; when all pass it is the reply to
  the ids joined by blanks, and splitting that field at its blanks gives the ids back.
-/

namespace HandlerKit.Reply

open Request (blank)

/-! ## One connection field -/

theorem frame_eq (s c p : Bytes) :
    frame s c p = if IsToken s then
      .ok (s ++ [blank] ++ decimal c.length ++ [58] ++ c ++ [44, blank] ++ p)
    else .error (tokenError .sender s) := by
  by_cases hs : IsToken s
  · rw [if_pos hs, frame, checkToken_of_isToken hs]
    rfl
  · rw [if_neg hs, frame, checkToken_of_not_isToken hs]
    rfl

theorem frame_eq_ok_iff {s c p out : Bytes} :
    frame s c p = .ok out ↔
      IsToken s ∧ out = s ++ [blank] ++ decimal c.length ++ [58] ++ c ++ [44, blank] ++ p := by
  rw [frame_eq]
  by_cases hs : IsToken s
  · rw [if_pos hs]
    simp [hs, eq_comm]
  · simp [hs]

/-- The bytes after the sender's blank: the length, its colon, the connection field, `", "`
and the payload. -/
theorem frame_bytes_eq (s c p : Bytes) :
    s ++ [blank] ++ decimal c.length ++ [58] ++ c ++ [44, blank] ++ p =
      s ++ blank :: (decimal c.length ++ 58 :: (c ++ 44 :: blank :: p)) := by
  simp

theorem colon_not_mem_decimal (n : Nat) : (58 : UInt8) ∉ decimal n := fun h => by
  have := decimal_digits n 58 h
  simp [Tnetstring.isDigit] at this

/-- A length field followed by its colon determines the field after it. -/
theorem eq_of_decimal_append {c c' q q' : Bytes}
    (h : decimal c.length ++ 58 :: (c ++ q) = decimal c'.length ++ 58 :: (c' ++ q')) :
    c = c' ∧ q = q' := by
  obtain ⟨hd, hrest⟩ :=
    append_cons_inj_of_not_mem (colon_not_mem_decimal _) (colon_not_mem_decimal _) h
  exact List.append_inj hrest (decimal_injective hd)

theorem frame_inj {s c p s' c' p' : Bytes} (hs : IsToken s) (hs' : IsToken s')
    (h : frame s c p = frame s' c' p') : s = s' ∧ c = c' ∧ p = p' := by
  rw [frame_eq, frame_eq, if_pos hs, if_pos hs', Except.ok.injEq, frame_bytes_eq,
    frame_bytes_eq] at h
  obtain ⟨rfl, hrest⟩ := append_cons_inj_of_not_mem hs.2 hs'.2 h
  obtain ⟨rfl, htail⟩ := eq_of_decimal_append hrest
  simp only [List.cons.injEq, true_and] at htail
  exact ⟨rfl, rfl, htail⟩

/-! ## Several connection ids -/

/-- The connection ids joined by blanks. -/
theorem joined_eq_intercalate (ids : List Bytes) :
    (ids.intersperse [blank]).flatten = [blank].intercalate ids := rfl

theorem splitOn_joined {ids : List Bytes} (hne : ids ≠ []) (h : ∀ id ∈ ids, IsToken id) :
    ((ids.intersperse [blank]).flatten).splitOn blank = ids := by
  rw [joined_eq_intercalate]
  exact List.splitOn_intercalate blank (fun id hid => (h id hid).2) hne

theorem forM_checkToken_of_all {field : Field} {ids : List Bytes} (h : ∀ id ∈ ids, IsToken id) :
    ids.forM (checkToken field) = .ok () := by
  induction ids with
  | nil => rfl
  | cons id ids ih =>
    rw [List.forM_eq_forM, List.forM_cons, ← List.forM_eq_forM,
      checkToken_of_isToken (h id List.mem_cons_self),
      ih fun x hx => h x (List.mem_cons_of_mem id hx)]
    rfl

/-- The ids are checked from the left: the first that is no token names the error. -/
theorem forM_checkToken_of_first {field : Field} {pre post : List Bytes} {id : Bytes}
    (hpre : ∀ x ∈ pre, IsToken x) (hid : ¬ IsToken id) :
    (pre ++ id :: post).forM (checkToken field) = .error (tokenError field id) := by
  induction pre with
  | nil =>
    rw [List.nil_append, List.forM_eq_forM, List.forM_cons, checkToken_of_not_isToken hid]
    rfl
  | cons x pre ih =>
    rw [List.cons_append, List.forM_eq_forM, List.forM_cons, ← List.forM_eq_forM,
      checkToken_of_isToken (hpre x List.mem_cons_self),
      ih fun y hy => hpre y (List.mem_cons_of_mem x hy)]
    rfl

theorem frameMany_nil (s p : Bytes) :
    frameMany s [] p = .error (.malformed .noConnectionIds) := rfl

theorem frameMany_of_length_gt {s p : Bytes} {ids : List Bytes}
    (h : maxConnectionIds < ids.length) :
    frameMany s ids p = .error (.malformed (.tooManyConnectionIds ids.length)) := by
  have hne : ids ≠ [] := by
    rintro rfl
    simp [maxConnectionIds] at h
  simp only [frameMany, if_neg hne, if_pos h]
  rfl

theorem frameMany_of_first_bad {s p : Bytes} {pre post : List Bytes} {id : Bytes}
    (hlen : (pre ++ id :: post).length ≤ maxConnectionIds) (hpre : ∀ x ∈ pre, IsToken x)
    (hid : ¬ IsToken id) :
    frameMany s (pre ++ id :: post) p = .error (tokenError .connection id) := by
  simp only [frameMany, if_neg (List.append_ne_nil_of_right_ne_nil pre (List.cons_ne_nil id post)),
    if_neg (Nat.not_lt.2 hlen)]
  rw [forM_checkToken_of_first hpre hid]
  rfl

theorem frameMany_eq_frame {s p : Bytes} {ids : List Bytes} (hne : ids ≠ [])
    (hlen : ids.length ≤ maxConnectionIds) (h : ∀ id ∈ ids, IsToken id) :
    frameMany s ids p = frame s ((ids.intersperse [blank]).flatten) p := by
  simp only [frameMany, if_neg hne, if_neg (Nat.not_lt.2 hlen)]
  rw [forM_checkToken_of_all h]
  rfl

theorem frameMany_ok_iff {s p : Bytes} {ids : List Bytes} :
    (∃ out, frameMany s ids p = .ok out) ↔
      ids ≠ [] ∧ ids.length ≤ maxConnectionIds ∧ (∀ id ∈ ids, IsToken id) ∧ IsToken s := by
  constructor
  · rintro ⟨out, hout⟩
    have hne : ids ≠ [] := by
      rintro rfl
      rw [frameMany_nil] at hout
      cases hout
    have hlen : ids.length ≤ maxConnectionIds := Nat.not_lt.1 fun hlt => by
      rw [frameMany_of_length_gt hlt] at hout
      cases hout
    have hids : ∀ id ∈ ids, IsToken id := Classical.byContradiction fun hbad => by
      obtain ⟨pre, id, post, rfl, hpre, hid⟩ := exists_first_not hbad
      rw [frameMany_of_first_bad hlen hpre hid] at hout
      cases hout
    rw [frameMany_eq_frame hne hlen hids, frame_eq] at hout
    by_cases hs : IsToken s
    · exact ⟨hne, hlen, hids, hs⟩
    · rw [if_neg hs] at hout
      cases hout
  · rintro ⟨hne, hlen, hids, hs⟩
    rw [frameMany_eq_frame hne hlen hids, frame_eq, if_pos hs]
    exact ⟨_, rfl⟩

/-! ## The framing theorem -/

/-- Reply framing is exact and decodes uniquely. One connection field: framing succeeds
exactly for a token sender, lays the bytes out as `<sender> <len>:<field>, <payload>`, and
equal bytes come from equal parts. Several ids: the checks run in the order empty list,
count, each id from the left, sender, the first failure is reported, and a reply that passes
is the reply to the ids joined by blanks, which splitting at blanks gives back. -/
theorem reply_framing_exact :
    (∀ s c p out : Bytes, frame s c p = .ok out ↔
      IsToken s ∧ out = s ++ [blank] ++ decimal c.length ++ [58] ++ c ++ [44, blank] ++ p) ∧
    (∀ s c p s' c' p' : Bytes, IsToken s → IsToken s' → frame s c p = frame s' c' p' →
      s = s' ∧ c = c' ∧ p = p') ∧
    (∀ (s p : Bytes) (ids : List Bytes), (∃ out, frameMany s ids p = .ok out) ↔
      ids ≠ [] ∧ ids.length ≤ 128 ∧ (∀ id ∈ ids, IsToken id) ∧ IsToken s) ∧
    (∀ s p : Bytes, frameMany s [] p = .error (.malformed .noConnectionIds)) ∧
    (∀ (s p : Bytes) (ids : List Bytes), 128 < ids.length →
      frameMany s ids p = .error (.malformed (.tooManyConnectionIds ids.length))) ∧
    (∀ (s p id : Bytes) (pre post : List Bytes), (pre ++ id :: post).length ≤ 128 →
      (∀ x ∈ pre, IsToken x) → ¬ IsToken id →
      frameMany s (pre ++ id :: post) p = .error (tokenError .connection id)) ∧
    (∀ (s p : Bytes) (ids : List Bytes), ids ≠ [] → ids.length ≤ 128 →
      (∀ id ∈ ids, IsToken id) → ¬ IsToken s →
      frameMany s ids p = .error (tokenError .sender s)) ∧
    (∀ (s p out : Bytes) (ids : List Bytes), frameMany s ids p = .ok out →
      frame s ((ids.intersperse [blank]).flatten) p = .ok out ∧
      ((ids.intersperse [blank]).flatten).splitOn blank = ids) := by
  refine ⟨fun s c p out => frame_eq_ok_iff, fun s c p s' c' p' hs hs' h => frame_inj hs hs' h,
    fun s p ids => frameMany_ok_iff, frameMany_nil, fun s p ids h => frameMany_of_length_gt h,
    fun s p id pre post hlen hpre hid => frameMany_of_first_bad hlen hpre hid, ?_, ?_⟩
  · intro s p ids hne hlen hids hs
    rw [frameMany_eq_frame hne hlen hids, frame_eq, if_neg hs]
  · intro s p out ids hout
    obtain ⟨hne, hlen, hids, -⟩ := frameMany_ok_iff.1 ⟨out, hout⟩
    exact ⟨(frameMany_eq_frame hne hlen hids).symm.trans hout, splitOn_joined hne hids⟩

/-- A reply of sender `srv` to connection `4`, one to connections `4` and `5`, and one whose
second connection id holds a blank. -/
theorem reply_framing_of_srv :
    frame (Bytes.ofString "srv") (Bytes.ofString "4") (Bytes.ofString "hi") =
        .ok (Bytes.ofString "srv 1:4, hi") ∧
      frameMany (Bytes.ofString "srv") [Bytes.ofString "4", Bytes.ofString "5"] (Bytes.ofString "hi") =
        .ok (Bytes.ofString "srv 3:4 5, hi") ∧
      frameMany (Bytes.ofString "srv") [Bytes.ofString "4", Bytes.ofString "5 6"] (Bytes.ofString "hi") =
        .error (tokenError .connection (Bytes.ofString "5 6")) := by
  obtain ⟨hframe, -, hmany, -, -, hbad, -, hjoin⟩ := reply_framing_exact
  have hsrv : IsToken (Bytes.ofString "srv") := by decide +kernel
  refine ⟨(hframe _ _ _ _).2 ⟨hsrv, by decide +kernel⟩, ?_,
    hbad _ _ _ [Bytes.ofString "4"] [] (by decide) (by decide +kernel) (by decide +kernel)⟩
  -- a delivery that frames is the single reply to the ids joined by a blank
  obtain ⟨out, hout⟩ := (hmany (Bytes.ofString "srv") (Bytes.ofString "hi")
    [Bytes.ofString "4", Bytes.ofString "5"]).2 ⟨by simp, by simp, by decide +kernel, hsrv⟩
  rw [hout, ((hframe _ _ _ _).1 (hjoin _ _ _ _ hout).1).2]
  congr 1
  decide +kernel

end HandlerKit.Reply
