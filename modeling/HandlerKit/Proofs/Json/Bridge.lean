import HandlerKit.Proofs.Json.Sound
import HandlerKit.Proofs.Json.RoundTrip

/-!
# JSON text and values

**Theorem (`bridge_round_trip`).** Text and representable values correspond, up to floats.

* A value parsed from a text, under any limit, is representable, so both layouts write it
  (`representable_of_parse`, `render_ok`, `renderPretty_ok`).
* A representable value at most `defaultDepth` deep is parsed back from the text of either
  layout, provided each of its floats is parsed back from its own text
  (`parse_writeValue`).

The proviso is needed: the float reader multiplies or divides by powers of ten, each step
rounded, so it does not always give the float nearest to a text. The shortest text of the
float with bits `0x4028fd0acceafc15` is read as the next float up
(`float_text_reads_back_rounded`).
-/

namespace HandlerKit.Json

open Value (Representable)

/-- Parsing UTF-8 text gives representable values, which both layouts write; a representable
value whose floats read back from their own texts is parsed back from either layout. -/
theorem bridge_round_trip (s : String) (m : Nat) (v : Value) :
    (parse m (Bytes.ofString s) = .ok v →
      Representable v ∧ (∃ t, render v = .ok t) ∧ ∃ t, renderPretty v = .ok t) ∧
    (Representable v → v.depth ≤ defaultDepth →
      (∀ x ∈ v.floats, parse defaultDepth (Bytes.ofString (floatText x)) = .ok (.float x)) →
      ∃ t p, render v = .ok t ∧ renderPretty v = .ok p ∧
        parse defaultDepth (Bytes.ofString t) = .ok v ∧ parse defaultDepth (Bytes.ofString p) = .ok v) := by
  refine ⟨fun h => ?_, fun hv hd hfl => ?_⟩
  · have hs : Utf8.isValid (Bytes.ofString s) = true := by
      rw [Utf8.ofString_eq_encode]
      exact Utf8.isValid_encode _
    have hrep := representable_of_parse hs h
    exact ⟨hrep, render_ok hrep, renderPretty_ok hrep⟩
  · obtain ⟨t, ht⟩ := writeValue_ok hv false 0
    obtain ⟨p, hp⟩ := writeValue_ok hv true 0
    exact ⟨t, p, mapError_eq_ok.2 ht, mapError_eq_ok.2 hp, parse_writeValue hv hd hfl false ht,
      parse_writeValue hv hd hfl true hp⟩

/-- A result whose float is `x` is the float `x`. -/
theorem eq_ok_float_of_asFloat {ε : Type} {r : Except ε Value} {x : Binary64}
    (h : r.toOption.bind Value.asFloat = some x) : r = .ok (.float x) := by
  rcases r with e | (_ | _ | y | _ | _ | _ | _) <;> cases h
  rfl

/-- The text `null` parses to a representable value, and a dict of a list of an integer, null,
a string and the float `1.5`, whose text reads back, is parsed back from both layouts. -/
theorem bridge_round_trip_dict :
    (Representable .null ∧ (∃ t, render .null = .ok t) ∧ ∃ t, renderPretty .null = .ok t) ∧
    ∃ t p,
      render (.dict [([97], .list [.int (-3), .null, .str [98], .float ⟨0x3FF8000000000000⟩])]) = .ok t ∧
      renderPretty (.dict [([97], .list [.int (-3), .null, .str [98], .float ⟨0x3FF8000000000000⟩])]) =
        .ok p ∧
      parse defaultDepth (Bytes.ofString t) =
        .ok (.dict [([97], .list [.int (-3), .null, .str [98], .float ⟨0x3FF8000000000000⟩])]) ∧
      parse defaultDepth (Bytes.ofString p) =
        .ok (.dict [([97], .list [.int (-3), .null, .str [98], .float ⟨0x3FF8000000000000⟩])]) := by
  have hnull : parse 64 (Bytes.ofString "null") = .ok .null :=
    parse_writeValue .null (by decide) (fun _ h => absurd h List.not_mem_nil) false rfl
  have hfin : Binary64.isFinite ⟨0x3FF8000000000000⟩ = true := by decide
  -- the float `1.5` reads back from its text
  have hfloat : parse defaultDepth (Bytes.ofString (floatText ⟨0x3FF8000000000000⟩)) =
      .ok (.float ⟨0x3FF8000000000000⟩) := by
    have htext : floatText ⟨0x3FF8000000000000⟩ = "1.5" := by decide +kernel
    rw [htext]
    exact eq_ok_float_of_asFloat (by rw [Utf8.ofString_eq_encode]; decide +kernel)
  have hlist : Representable (.list [.int (-3), .null, .str [98], .float ⟨0x3FF8000000000000⟩]) :=
    .list fun x hx => by
      simp only [List.mem_cons, List.not_mem_nil, or_false] at hx
      rcases hx with rfl | rfl | rfl | rfl
      · exact .int _
      · exact .null
      · exact .str (by rw [Utf8.isValid_cons [] (by decide)]; exact Utf8.isValid_encode [])
      · exact .float hfin
  have hdict : Representable
      (.dict [([97], .list [.int (-3), .null, .str [98], .float ⟨0x3FF8000000000000⟩])]) :=
    .dict (List.pairwise_singleton _ _)
      (fun e he => by rw [List.mem_singleton.1 he, Utf8.isValid_cons [] (by decide)]; exact Utf8.isValid_encode [])
      (fun e he => by rw [List.mem_singleton.1 he]; exact hlist)
  exact ⟨(bridge_round_trip "null" 64 .null).1 hnull,
    (bridge_round_trip "null" 64 _).2 hdict (by decide) fun x hx => by
      rw [List.mem_singleton.1 hx]
      exact hfloat⟩

/-- The shortest text of the float with bits `0x4028fd0acceafc15` is read as the float with bits
`0x4028fd0acceafc16`. -/
theorem float_text_reads_back_rounded :
    Representable (.float ⟨0x4028fd0acceafc15⟩) ∧
      render (.float ⟨0x4028fd0acceafc15⟩) = .ok "12.494223025974899" ∧
      parse defaultDepth (Bytes.ofString "12.494223025974899") = .ok (.float ⟨0x4028fd0acceafc16⟩) := by
  have hfin : Binary64.isFinite ⟨0x4028fd0acceafc15⟩ = true := by decide
  refine ⟨.float hfin, ?_, ?_⟩
  · have htext : floatText ⟨0x4028fd0acceafc15⟩ = "12.494223025974899" := by decide +kernel
    rw [render, mapError_eq_ok, writeValue, if_pos hfin, htext]
  · -- the float read, by its bits
    exact eq_ok_float_of_asFloat (by rw [Utf8.ofString_eq_encode]; decide +kernel)

end HandlerKit.Json
