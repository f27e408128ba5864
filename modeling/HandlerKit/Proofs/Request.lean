import HandlerKit.Proofs.Except
import HandlerKit.Proofs.Tokens
import HandlerKit.Proofs.Tnetstring.Grammar

/-!
# Requests are read exactly

A request is `<sender> <connection> <path> <headers><body?>`: three tokens each ended by a
blank, then one TNetstring frame for the headers and, if bytes remain, one more for the body.

**Decomposition.** A token ends at its first blank (`splitToken_append`, `eq_of_splitToken`)
and a frame fixes its own extent (`readPrefix_of_encodes`, `encodes_of_readPrefix`), so the
bytes of a request split one way only.

**Headers** (`selectHeaders_eq_ok_iff`). A dict frame is taken as it stands. Under the `auto`
format a string frame holding UTF-8 text of a JSON object gives that object. Any other frame
is refused.

**Body** (`readBody_eq_ok_iff`). No bytes is no body; otherwise the bytes are exactly one
frame.

**Theorem (`parse_eq_ok_iff`).** A request is read exactly when its bytes are laid out as
above. Hence the headers of every request read are a dict (`headers_of_parse`), and the `auto`
format reads every message the TNetstring format reads, to the same request
(`parse_auto_of_parse_tnetstring`).
-/

namespace HandlerKit.Request

open Tnetstring (Encodes encodes_ne_nil readPrefix_of_encodes encodes_of_readPrefix)

/-! ## Headers -/

theorem jsonHeaders_eq_ok_iff {text : Bytes} {limit : Nat} {hd : Value} :
    jsonHeaders text limit = .ok hd ↔
      (Utf8.decode? text).isSome ∧ ∃ D, Json.parse limit text = .ok (.dict D) ∧ hd = .dict D := by
  unfold jsonHeaders
  cases hdec : Utf8.decode? text with
  | none => simp
  | some cs =>
    cases hj : Json.parse limit text with
    | error e => simp
    | ok w => cases w <;> simp [eq_comm]

/-- The headers come from a dict frame as it stands or, under the `auto` format, from a
string frame holding UTF-8 text of a JSON object. -/
theorem selectHeaders_eq_ok_iff {opts : ParseOptions} {H hd : Value} :
    selectHeaders opts H = .ok hd ↔
      (∃ es, H = .dict es ∧ hd = H) ∨
      (opts.headerFormat = .auto ∧ ∃ x D, H = .str x ∧ (Utf8.decode? x).isSome ∧
        Json.parse opts.maxDepth x = .ok (.dict D) ∧ hd = .dict D) := by
  cases H
  case dict es =>
    simp only [selectHeaders, pure_eq_ok]
    simp only [Value.dict.injEq, exists_eq_left', reduceCtorEq, false_and, exists_false,
      and_false, or_false]
    exact eq_comm
  case str x =>
    unfold selectHeaders
    cases hf : opts.headerFormat with
    | auto => simp [jsonHeaders_eq_ok_iff]
    | tnetstring => simp
  all_goals simp [selectHeaders]

/-- Headers read under the TNetstring format are read the same under the `auto` format. -/
theorem selectHeaders_auto_of_tnetstring {m : Nat} {H hd : Value}
    (h : selectHeaders ⟨.tnetstring, m⟩ H = .ok hd) : selectHeaders ⟨.auto, m⟩ H = .ok hd := by
  rcases selectHeaders_eq_ok_iff.1 h with hdict | ⟨hf, -⟩
  · exact selectHeaders_eq_ok_iff.2 (.inl hdict)
  · cases hf

/-! ## Body -/

/-- No bytes after the headers is no body; otherwise they are exactly one frame. -/
theorem readBody_eq_ok_iff {limit : Nat} {rest : Bytes} {body : Option Value} :
    readBody limit rest = .ok body ↔
      (rest = [] ∧ body = none) ∨ ∃ B, Encodes limit 1 rest B ∧ body = some B := by
  cases rest with
  | nil =>
    have hnone : ∀ B, ¬ Encodes limit 1 [] B := fun B hB => encodes_ne_nil hB rfl
    simp [readBody, hnone]
    exact eq_comm
  | cons b bs =>
    constructor
    · intro h
      obtain ⟨⟨B, trailing⟩, hB, h⟩ := bind_eq_ok.1 h
      cases trailing with
      | nil =>
        obtain ⟨e, he, hframe⟩ := encodes_of_readPrefix hB
        rw [List.append_nil] at he
        simp at h
        exact .inr ⟨B, he ▸ hframe, h.symm⟩
      | cons t ts => simp at h
    · rintro (⟨hnil, -⟩ | ⟨B, hB, rfl⟩)
      · cases hnil
      · have hread := readPrefix_of_encodes hB []
        rw [List.append_nil] at hread
        simp [readBody, hread]

/-! ## Requests -/

/-- The bytes of a request, with each blank moved next to the token it ends. -/
theorem request_bytes_eq (s c p h b : Bytes) :
    s ++ [blank] ++ c ++ [blank] ++ p ++ [blank] ++ h ++ b =
      s ++ blank :: (c ++ blank :: (p ++ blank :: (h ++ b))) := by
  simp

/-- A request is read exactly when it is three tokens each ended by a blank, a frame whose
value gives the headers, and bytes that give the body. -/
theorem parse_eq_ok_iff {opts : ParseOptions} {raw : Bytes} {req : Request} :
    parse opts raw = .ok req ↔
      ∃ s c p h b H, IsToken s ∧ IsToken c ∧ IsToken p ∧
        raw = s ++ [blank] ++ c ++ [blank] ++ p ++ [blank] ++ h ++ b ∧
        Encodes opts.maxDepth 1 h H ∧ selectHeaders opts H = .ok req.headers ∧
        readBody opts.maxDepth b = .ok req.body ∧
        req.sender = s ∧ req.connection = c ∧ req.path = p := by
  constructor
  · intro h
    -- each step of the reader succeeded; peel them off in order
    obtain ⟨⟨s, r1⟩, hs, h⟩ := bind_eq_ok.1 h
    obtain ⟨⟨c, r2⟩, hc, h⟩ := bind_eq_ok.1 h
    obtain ⟨⟨p, r3⟩, hp, h⟩ := bind_eq_ok.1 h
    obtain ⟨⟨H, r4⟩, hH, h⟩ := bind_eq_ok.1 h
    obtain ⟨hd, hhd, h⟩ := bind_eq_ok.1 h
    obtain ⟨body, hbody, h⟩ := bind_eq_ok.1 h
    obtain rfl := Except.ok.inj h
    obtain ⟨hts, rfl⟩ := eq_of_splitToken hs
    obtain ⟨htc, rfl⟩ := eq_of_splitToken hc
    obtain ⟨htp, rfl⟩ := eq_of_splitToken hp
    obtain ⟨e, rfl, he⟩ := encodes_of_readPrefix hH
    exact ⟨s, c, p, e, r4, H, hts, htc, htp, request_bytes_eq s c p e r4 ▸ rfl, he, hhd, hbody,
      rfl, rfl, rfl⟩
  · rintro ⟨s, c, p, h, b, H, hs, hc, hp, rfl, hh, hhd, hbody, rfl, rfl, rfl⟩
    rw [request_bytes_eq, parse]
    refine bind_eq_ok.2 ⟨_, splitToken_append _ hs, ?_⟩
    refine bind_eq_ok.2 ⟨_, splitToken_append _ hc, ?_⟩
    refine bind_eq_ok.2 ⟨_, splitToken_append _ hp, ?_⟩
    refine bind_eq_ok.2 ⟨_, readPrefix_of_encodes hh b, ?_⟩
    refine bind_eq_ok.2 ⟨_, hhd, ?_⟩
    exact bind_eq_ok.2 ⟨_, hbody, rfl⟩

/-- The headers of every request read are a dict. -/
theorem headers_of_parse {opts : ParseOptions} {raw : Bytes} {req : Request}
    (h : parse opts raw = .ok req) : ∃ es, req.headers = .dict es := by
  obtain ⟨s, c, p, hb, b, H, -, -, -, -, -, hhd, -⟩ := parse_eq_ok_iff.1 h
  rcases selectHeaders_eq_ok_iff.1 hhd with ⟨es, rfl, hH⟩ | ⟨-, x, D, -, -, -, hD⟩
  · exact ⟨es, hH⟩
  · exact ⟨D, hD⟩

/-- The `auto` format reads every message the TNetstring format reads, to the same request. -/
theorem parse_auto_of_parse_tnetstring {m : Nat} {raw : Bytes} {req : Request}
    (h : parse ⟨.tnetstring, m⟩ raw = .ok req) : parse ⟨.auto, m⟩ raw = .ok req := by
  obtain ⟨s, c, p, hb, b, H, hs, hc, hp, hraw, hh, hhd, hbody, hreq⟩ := parse_eq_ok_iff.1 h
  exact parse_eq_ok_iff.2
    ⟨s, c, p, hb, b, H, hs, hc, hp, hraw, hh, selectHeaders_auto_of_tnetstring hhd, hbody, hreq⟩

/-- Requests are read exactly in the wire format: three tokens, each non-empty and ended by
the first blank, a headers frame that is a dict or, under the `auto` format, a string holding
UTF-8 text of a JSON object, and either nothing or exactly one body frame. The headers read
are always a dict, and the `auto` format agrees with the TNetstring format wherever the latter
reads a request. -/
theorem parse_accepts_wire_format :
    (∀ (opts : ParseOptions) (raw : Bytes) (req : Request), parse opts raw = .ok req ↔
      ∃ s c p h b H, IsToken s ∧ IsToken c ∧ IsToken p ∧
        raw = s ++ [blank] ++ c ++ [blank] ++ p ++ [blank] ++ h ++ b ∧
        Encodes opts.maxDepth 1 h H ∧
        ((∃ es, H = .dict es ∧ req.headers = H) ∨
          (opts.headerFormat = .auto ∧ ∃ x D, H = .str x ∧ (Utf8.decode? x).isSome ∧
            Json.parse opts.maxDepth x = .ok (.dict D) ∧ req.headers = .dict D)) ∧
        ((b = [] ∧ req.body = none) ∨ ∃ B, Encodes opts.maxDepth 1 b B ∧ req.body = some B) ∧
        req.sender = s ∧ req.connection = c ∧ req.path = p) ∧
    (∀ (opts : ParseOptions) (raw : Bytes) (req : Request), parse opts raw = .ok req →
      ∃ es, req.headers = .dict es) ∧
    (∀ (m : Nat) (raw : Bytes) (req : Request),
      parse ⟨.tnetstring, m⟩ raw = .ok req → parse ⟨.auto, m⟩ raw = .ok req) := by
  refine ⟨fun opts raw req => ?_, fun opts raw req => headers_of_parse,
    fun m raw req => parse_auto_of_parse_tnetstring⟩
  rw [parse_eq_ok_iff]
  simp only [selectHeaders_eq_ok_iff, readBody_eq_ok_iff]

/-- The message `srv 4 /x 2:{},0:~`, whose headers are the JSON text `{}` in a string frame and
whose body is null, is read under the `auto` format; the message `srv 4 /x 0:}`, whose headers
are the empty dict frame, is read under both formats. -/
theorem parse_reads_srv_messages :
    parse ⟨.auto, 64⟩ (Bytes.ofString "srv 4 /x 2:\x7b\x7d,0:~") =
        .ok ⟨Bytes.ofString "srv", Bytes.ofString "4", Bytes.ofString "/x", .dict [], some .null⟩ ∧
      parse ⟨.tnetstring, 64⟩ (Bytes.ofString "srv 4 /x 0:\x7d") =
        .ok ⟨Bytes.ofString "srv", Bytes.ofString "4", Bytes.ofString "/x", .dict [], none⟩ ∧
      parse ⟨.auto, 64⟩ (Bytes.ofString "srv 4 /x 0:\x7d") =
        .ok ⟨Bytes.ofString "srv", Bytes.ofString "4", Bytes.ofString "/x", .dict [], none⟩ := by
  obtain ⟨hwire, -, hauto⟩ := parse_accepts_wire_format
  -- the JSON text `{}` is read as an object, told by the number of its entries
  have hjson : Json.parse 64 [123, 125] = .ok (.dict []) := by
    have h : ((Json.parse 64 [123, 125]).toOption.bind fun v => v.asEntries.map List.length) =
        some 0 := by
      decide +kernel
    revert h
    rcases Json.parse 64 [123, 125] with e | (_ | _ | _ | _ | _ | (_ | ⟨_, _⟩) | _) <;> intro h <;>
      try cases h
    rfl
  have hd0 : Tnetstring.LengthDigits [48] 0 := Tnetstring.lengthDigits_singleton (by decide)
  have hd2 : Tnetstring.LengthDigits [50] 2 := Tnetstring.lengthDigits_singleton (by decide)
  have hdict : parse ⟨.tnetstring, 64⟩ (Bytes.ofString "srv 4 /x 0:\x7d") =
      .ok ⟨Bytes.ofString "srv", Bytes.ofString "4", Bytes.ofString "/x", .dict [], none⟩ :=
    (hwire _ _ _).2 ⟨Bytes.ofString "srv", Bytes.ofString "4", Bytes.ofString "/x", [48, 58, 125], [],
      .dict [], by decide +kernel, by decide +kernel, by decide +kernel, by decide +kernel,
      .dict (by decide) hd0 .nil, .inl ⟨[], rfl, rfl⟩, .inl ⟨rfl, rfl⟩, rfl, rfl, rfl⟩
  refine ⟨(hwire ⟨.auto, 64⟩ _ _).2 ⟨Bytes.ofString "srv", Bytes.ofString "4", Bytes.ofString "/x",
      [50, 58, 123, 125, 44], [48, 58, 126], .str [123, 125], by decide +kernel, by decide +kernel,
      by decide +kernel, by decide +kernel, .scalar (by decide) hd2 (.string [123, 125]),
      .inr ⟨rfl, [123, 125], [], rfl, by decide +kernel, hjson, rfl⟩,
      .inr ⟨.null, .scalar (by decide) hd0 .null, rfl⟩, rfl, rfl, rfl⟩, hdict, hauto _ _ _ hdict⟩

end HandlerKit.Request
