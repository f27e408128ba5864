import HandlerKit.Proofs.Request
import HandlerKit.Connection

/-!
# Reading fails only for the bytes read

Every failure of reading a TNetstring value, a JSON text or a request names something wrong
with the bytes: a malformed frame, a length past the end, an unknown tag, a key that is no
string, nesting too deep, a JSON fault. None is the transport's own failure, `terminated` or a
transport error (`Error.fromTransport`); those come only from the transport. Accepting a
message adds only `tooLarge` (`Connection.fromTransport_of_accept`).

So a loop that stops on the transport's failures and skips every other one skips exactly the
messages it cannot read. The proof for values follows the reader's own recursion on the bytes
left, as the reader's soundness does.
-/

namespace HandlerKit

/-- Whether an error is the transport's own: it terminated, or it failed. -/
def Error.fromTransport : Error → Bool
  | .terminated => true
  | .transport _ => true
  | _ => false

namespace Tnetstring

/-- A frame that cannot be cut off is malformed or runs past the end. -/
theorem fromTransport_of_split {data : Bytes} {e : Error} (h : Frame.split data = .error e) :
    e.fromTransport = false := by
  unfold Frame.split at h
  split at h
  · cases h; rfl
  · dsimp only at h
    repeat' split at h
    all_goals cases h <;> rfl

theorem fromTransport_of_readScalar {tag : Tag} {p : Bytes} {e : Error}
    (h : readScalar tag p = .error e) : e.fromTransport = false := by
  unfold readScalar at h
  repeat' split at h
  all_goals cases h <;> rfl

mutual
/-- The value reader fails only with the failures of frames, tags and payloads. -/
theorem fromTransport_of_readValue {limit level : Nat} {data : Bytes} {e : Error}
    (h : readValue limit level data = .error e) : e.fromTransport = false := by
  rw [readValue] at h
  split at h
  · cases h; rfl
  · split at h
    · rename_i e' he
      cases h
      exact fromTransport_of_split he
    · rename_i f hf
      have hshorter := f.payload_lt
      split at h
      · cases h; rfl
      · split at h
        · cases h
          exact fromTransport_of_readEntries ‹_›
        · cases h
      · split at h
        · cases h
          exact fromTransport_of_readItems ‹_›
        · cases h
      · split at h
        · cases h
          exact fromTransport_of_readScalar ‹_›
        · cases h
termination_by 2 * data.length
decreasing_by all_goals omega

theorem fromTransport_of_readItems {limit level : Nat} {payload : Bytes} {acc : List Value}
    {e : Error} (h : readItems limit level payload acc = .error e) : e.fromTransport = false := by
  cases payload with
  | nil => rw [readItems] at h; cases h
  | cons b bs =>
    rw [readItems] at h
    split at h
    · cases h
      exact fromTransport_of_readValue ‹_›
    · rename_i v rest hrest hv
      exact fromTransport_of_readItems h
termination_by 2 * payload.length + 1
decreasing_by all_goals subst_vars; omega

theorem fromTransport_of_readEntries {limit level : Nat} {payload : Bytes}
    {acc : List (Bytes × Value)} {e : Error} (h : readEntries limit level payload acc = .error e) :
    e.fromTransport = false := by
  cases payload with
  | nil => rw [readEntries] at h; cases h
  | cons b bs =>
    rw [readEntries] at h
    split at h
    · cases h
      exact fromTransport_of_readValue ‹_›
    · split at h
      · cases h; rfl
      · split at h
        · cases h
          exact fromTransport_of_readValue ‹_›
        · exact fromTransport_of_readEntries h
    · cases h; rfl
termination_by 2 * payload.length + 1
decreasing_by all_goals subst_vars; omega
end

theorem fromTransport_of_readPrefix {limit : Nat} {data : Bytes} {e : Error}
    (h : readPrefix limit data = .error e) : e.fromTransport = false := by
  unfold readPrefix at h
  cases hv : readValue limit 1 data with
  | error e' =>
    rw [hv] at h
    cases h
    exact fromTransport_of_readValue hv
  | ok r => rw [hv] at h; cases h

end Tnetstring

theorem Json.fromTransport_of_parse {limit : Nat} {text : Bytes} {e : Error}
    (h : Json.parse limit text = .error e) : e.fromTransport = false := by
  unfold Json.parse at h
  repeat' split at h
  all_goals cases h <;> rfl

namespace Request

theorem fromTransport_of_splitToken {field : Field} {buf : Bytes} {e : Error}
    (h : splitToken field buf = .error e) : e.fromTransport = false := by
  unfold splitToken at h
  dsimp only at h
  repeat' split at h
  all_goals cases h <;> rfl

theorem fromTransport_of_jsonHeaders {text : Bytes} {limit : Nat} {e : Error}
    (h : jsonHeaders text limit = .error e) : e.fromTransport = false := by
  unfold jsonHeaders at h
  split at h
  · cases h; rfl
  · split at h
    · cases h
      exact Json.fromTransport_of_parse ‹_›
    · cases h
    · cases h; rfl

theorem fromTransport_of_selectHeaders {opts : ParseOptions} {H : Value} {e : Error}
    (h : selectHeaders opts H = .error e) : e.fromTransport = false := by
  unfold selectHeaders at h
  split at h
  · cases h
  · exact fromTransport_of_jsonHeaders h
  · cases h; rfl

theorem fromTransport_of_readBody {limit : Nat} {rest : Bytes} {e : Error}
    (h : readBody limit rest = .error e) : e.fromTransport = false := by
  unfold readBody at h
  split at h
  · cases h
  · rcases bind_eq_error.1 h with h | ⟨⟨b, trailing⟩, -, h⟩
    · exact Tnetstring.fromTransport_of_readPrefix h
    · dsimp only at h
      split at h
      · rcases bind_eq_error.1 h with h | ⟨_, h, -⟩
        · cases h; rfl
        · exact absurd h throw_ne_ok
      · cases h

/-- Reading a request fails only for its bytes, never with a failure of the transport. -/
theorem fromTransport_of_parse {opts : ParseOptions} {raw : Bytes} {e : Error}
    (h : parse opts raw = .error e) : e.fromTransport = false := by
  unfold parse at h
  rcases bind_eq_error.1 h with h | ⟨⟨sender, r1⟩, -, h⟩
  · exact fromTransport_of_splitToken h
  rcases bind_eq_error.1 h with h | ⟨⟨connection, r2⟩, -, h⟩
  · exact fromTransport_of_splitToken h
  rcases bind_eq_error.1 h with h | ⟨⟨path, r3⟩, -, h⟩
  · exact fromTransport_of_splitToken h
  rcases bind_eq_error.1 h with h | ⟨⟨hd, r4⟩, -, h⟩
  · exact Tnetstring.fromTransport_of_readPrefix h
  rcases bind_eq_error.1 h with h | ⟨headers, -, h⟩
  · exact fromTransport_of_selectHeaders h
  rcases bind_eq_error.1 h with h | ⟨body, -, h⟩
  · exact fromTransport_of_readBody h
  · cases h

end Request

theorem Connection.fromTransport_of_accept {c : Connection} {raw : Bytes} {e : Error}
    (h : c.accept raw = .error e) : e.fromTransport = false := by
  unfold Connection.accept at h
  split at h
  · cases h; rfl
  · exact Request.fromTransport_of_parse h

end HandlerKit
