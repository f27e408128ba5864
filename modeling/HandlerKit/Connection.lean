import HandlerKit.Transport.Basic
import HandlerKit.Request.Reply
import HandlerKit.Config.Schema

/-!
# Handler connections

A connection is a pull endpoint for requests and a publish endpoint for replies, with the
options requests are read under and a cap on the size of one request.

Receiving takes exactly one message off the pull endpoint. A message over the cap is the error
`tooLarge` and is gone; any other message is read as a request, and a malformed one is an error
that leaves the connection usable. Sending frames a reply for the server (sender, connection
ids, payload) and publishes it; a reply that cannot be framed publishes nothing.
-/

namespace HandlerKit

/-- A handler connection. -/
structure Connection where
  identity : Option Bytes
  inboundAddr : String
  outboundAddr : String
  /-- The pull endpoint's handle. -/
  inbound : Nat
  /-- The publish endpoint's handle. -/
  outbound : Nat
  options : ParseOptions := {}
  maxMessageBytes : Nat := defaultMaxMessageBytes

namespace Connection

variable {τ : Type} [Transport τ]

/-- Connect the pull endpoint, then the publish endpoint; when the second fails the first is
closed again. -/
def connect (t : τ) (identity : Option Bytes) (inboundAddr outboundAddr : String) :
    Except Error Connection × τ :=
  match Transport.pull t identity inboundAddr with
  | (.error e, t) => (.error e, t)
  | (.ok i, t) =>
    match Transport.publish t outboundAddr with
    | (.error e, t) => (.error e, Transport.closeInbound t i)
    | (.ok o, t) => (.ok { identity, inboundAddr, outboundAddr, inbound := i, outbound := o }, t)

/-- Connect as a configuration section says, with its options and cap. -/
def fromConfig (t : τ) (h : HandlerSection) : Except Error Connection × τ :=
  match connect t (h.senderId.map Bytes.ofString) h.recvAddr h.sendAddr with
  | (.ok c, t) => (.ok { c with options := h.parseOptions, maxMessageBytes := h.maxMessageBytes }, t)
  | (.error e, t) => (.error e, t)

/-- A message as a request: over the cap it is `tooLarge`, else it is parsed. -/
def accept (c : Connection) (raw : Bytes) : Except Error Request :=
  if raw.length > c.maxMessageBytes then .error (.tooLarge raw.length c.maxMessageBytes)
  else Request.parse c.options raw

/-- Wait for the next request. -/
def recv (c : Connection) (t : τ) : Wait Request × τ :=
  match Transport.recv t c.inbound with
  | (.ready raw, t) =>
    match c.accept raw with
    | .ok r => (.ready r, t)
    | .error e => (.failed e, t)
  | (.failed e, t) => (.failed e, t)
  | (.idle, t) => (.idle, t)

/-- Publish a framed message, or report why it could not be framed. -/
def publishFramed (c : Connection) (t : τ) (msg : Except Error Bytes) : Except Error Unit × τ :=
  match msg with
  | .ok m => Transport.send t c.outbound m
  | .error e => (.error e, t)

/-- Send a payload to one connection id (or several, already joined by blanks). -/
def send (c : Connection) (t : τ) (sender connection payload : Bytes) : Except Error Unit × τ :=
  c.publishFramed t (Reply.frame sender connection payload)

/-- Send one payload to every id in a list. -/
def deliver (c : Connection) (t : τ) (sender : Bytes) (ids : List Bytes) (payload : Bytes) :
    Except Error Unit × τ :=
  c.publishFramed t (Reply.frameMany sender ids payload)

/-- Reply to the client a request came from. -/
def reply (c : Connection) (t : τ) (r : Request) (payload : Bytes) : Except Error Unit × τ :=
  c.send t r.sender r.connection payload

/-- Reply with an HTTP response. -/
def replyHttp (c : Connection) (t : τ) (r : Request) (body : Bytes) (code : Nat) (status : String)
    (headers : List (String × String)) : Except Error Unit × τ :=
  c.reply t r (Reply.http body code status headers)

/-- Ask the server to close the client's connection: an empty payload. -/
def replyClose (c : Connection) (t : τ) (r : Request) : Except Error Unit × τ :=
  c.reply t r []

/-- Release both endpoints. -/
def close (c : Connection) (t : τ) : τ :=
  Transport.closeOutbound (Transport.closeInbound t c.inbound) c.outbound

end Connection

end HandlerKit
