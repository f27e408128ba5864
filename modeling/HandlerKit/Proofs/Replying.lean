import HandlerKit.Proofs.Request
import HandlerKit.Proofs.Tnetstring.Nesting
import HandlerKit.Proofs.Reply
import HandlerKit.Connection

/-!
# Every request read can be answered

Reading a request and framing a reply check their tokens separately: the reader cuts the
sender and the connection id off at the first blank and refuses an empty one, the framer
refuses an empty sender or one holding a blank. The two agree: what the reader cuts off is
a token (`tokens_of_parse`), which is what the framer takes.

**Theorem (`reply_frames_of_parse`).** For every request read, under any options, and every
payload, the reply to its client is framed as `<sender> <len>:<connection>, <payload>`, and
addressing the one connection in a list frames the same bytes. Replying on a connection, with
a payload, an HTTP response or a close, is then exactly one send of those bytes on the publish
endpoint, so it fails only when that send does.
-/

namespace HandlerKit.Reply

open Request (blank)

variable {opts : ParseOptions} {raw : Bytes} {req : Request}

/-- The sender and the connection id of a request read are tokens. -/
theorem tokens_of_parse (h : Request.parse opts raw = .ok req) :
    IsToken req.sender ∧ IsToken req.connection := by
  obtain ⟨s, c, p, hb, b, H, hs, hc, -, -, -, -, -, hsender, hconn, -⟩ :=
    Request.parse_eq_ok_iff.1 h
  rw [hsender, hconn]
  exact ⟨hs, hc⟩

/-- The bytes of a reply with payload `p` to the client of `req`. -/
def requestReply (req : Request) (p : Bytes) : Bytes :=
  req.sender ++ [blank] ++ decimal req.connection.length ++ [58] ++ req.connection ++ [44, blank]
    ++ p

theorem frame_of_parse (h : Request.parse opts raw = .ok req) (p : Bytes) :
    frame req.sender req.connection p = .ok (requestReply req p) := by
  rw [frame_eq, if_pos (tokens_of_parse h).1]
  rfl

/-- Addressing a single connection id frames the reply to that id. -/
theorem frameMany_singleton {s c : Bytes} (hc : IsToken c) (p : Bytes) :
    frameMany s [c] p = frame s c p := by
  have hlen : [c].length ≤ maxConnectionIds := by
    simp [maxConnectionIds]
  rw [frameMany_eq_frame (List.cons_ne_nil c []) hlen fun id hid => List.mem_singleton.1 hid ▸ hc,
    List.intersperse_singleton, List.flatten_singleton]

section Send

variable {τ : Type} [Transport τ]

/-- A reply to a request read is one send of its framed bytes. -/
theorem reply_of_parse (h : Request.parse opts raw = .ok req) (c : Connection) (t : τ)
    (p : Bytes) : c.reply t req p = Transport.send t c.outbound (requestReply req p) := by
  rw [Connection.reply, Connection.send, frame_of_parse h]
  rfl

end Send

/-- Every request read can be replied to: the reply to its client, alone or as the one id of
a list, is framed for every payload, and replying with a payload, an HTTP response or a close
is one send of the framed bytes on the publish endpoint. -/
theorem reply_frames_of_parse (opts : ParseOptions) (raw : Bytes) (req : Request)
    (h : Request.parse opts raw = .ok req) :
    (∀ p, frame req.sender req.connection p = .ok (req.sender ++ [blank] ++
      decimal req.connection.length ++ [58] ++ req.connection ++ [44, blank] ++ p)) ∧
    (∀ p, frameMany req.sender [req.connection] p = frame req.sender req.connection p) ∧
    ∀ {τ : Type} [Transport τ] (c : Connection) (t : τ),
      (∀ p, c.reply t req p = Transport.send t c.outbound (requestReply req p)) ∧
      (∀ body code status headers, c.replyHttp t req body code status headers =
        Transport.send t c.outbound (requestReply req (http body code status headers))) ∧
      c.replyClose t req = Transport.send t c.outbound (requestReply req []) := by
  refine ⟨frame_of_parse h, frameMany_singleton (tokens_of_parse h).2, ?_⟩
  intro τ _ c t
  exact ⟨reply_of_parse h c t, fun body code status headers => reply_of_parse h c t _,
    reply_of_parse h c t []⟩

/-- The request `srv 4 /x 0:}` of the echo service's own test is read, with an empty dict of
headers and no body, and can be replied to. -/
theorem reply_frames_echo_request :
    Request.parse {} [115, 114, 118, 32, 52, 32, 47, 120, 32, 48, 58, 125] =
        .ok ⟨[115, 114, 118], [52], [47, 120], .dict [], none⟩ ∧
      frame [115, 114, 118] [52] [] = .ok [115, 114, 118, 32, 49, 58, 52, 44, 32] := by
  have hd0 : Tnetstring.LengthDigits [48] 0 := Tnetstring.lengthDigits_singleton (by decide)
  have hparse : Request.parse {} [115, 114, 118, 32, 52, 32, 47, 120, 32, 48, 58, 125] =
      .ok ⟨[115, 114, 118], [52], [47, 120], .dict [], none⟩ :=
    Request.parse_eq_ok_iff.2 ⟨[115, 114, 118], [52], [47, 120], [48, 58, 125], [], .dict [],
      by decide, by decide, by decide, rfl, .dict (by decide) hd0 .nil,
      Request.selectHeaders_eq_ok_iff.2 (.inl ⟨[], rfl, rfl⟩), rfl, rfl, rfl, rfl⟩
  have hbytes : [115, 114, 118] ++ [blank] ++ decimal [52].length ++ [58] ++ [52] ++ [44, blank] ++ [] =
      [115, 114, 118, 32, 49, 58, 52, 44, 32] := by
    rw [decimal_eq_map]
    decide
  exact ⟨hparse, hbytes ▸ (reply_frames_of_parse {} _ _ hparse).1 []⟩

end HandlerKit.Reply
