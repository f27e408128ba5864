import HandlerKit.Connection

/-!
# Benches: driving connections step by step

A bench holds a transport, the server's side of it, and numbered handler connections, and runs
one step at a time. Connections are numbered from 0 in the order they open; an open that fails
takes no number. Each connection remembers the last request it received, so that a reply step
can answer it.

Some steps cannot run: a receive with nothing to receive would wait forever, a reply needs a
request, a number must name an open connection. The bench *refuses* such a step without
touching the transport, and says why.
-/

namespace HandlerKit

/-- Why a bench refuses a step. -/
inductive Refusal where
  /-- Nothing is there to receive, and waiting would never end. -/
  | wouldBlock
  /-- A reply needs a request received on the connection. -/
  | noRequest
  | noConnection (n : Nat)
  | noPuller (n : Nat)
  | noSubscriber (n : Nat)
  /-- A subscriber may only be waited on once the transport is terminated. -/
  | notTerminated
  /-- Only one connection may pull from the server's request address. -/
  | secondPuller (addr : String)
  /-- The server's push socket has no puller to go to. -/
  | noPullerFor (addr : String)
  /-- After termination starts, whether a send or a receive of a queued message still goes
  through depends on timing. -/
  | sendAfterTerminate
  | recvAfterTerminate
  | terminateTwice
  deriving DecidableEq, Repr

/-- What a step that ran gives back. -/
inductive Answer where
  | done
  | conn (n : Nat)
  | puller (n : Nat)
  | sub (n : Nat)
  | count (n : Nat)
  | flag (b : Bool)
  | message (m : Option Bytes)
  | messages (ms : List Bytes)
  | request (r : Request)
  | info (identity : Option Bytes) (inbound outbound : String) (hasRequest : Bool)
  | opened (identity : Option Bytes) (inbound outbound : String)

/-- How a step ended. -/
inductive Outcome where
  | ok (a : Answer)
  | failed (e : Error)
  | refused (r : Refusal)

/-- The outcome of a transport call that gives nothing back. -/
def Outcome.ofUnit (r : Except Error Unit) : Outcome :=
  match r with
  | .ok () => .ok .done
  | .error e => .failed e

/-- Steps on one connection. -/
inductive ConnStep where
  | recv
  | send (sender connection payload : Bytes)
  | deliver (sender : Bytes) (ids : List Bytes) (payload : Bytes)
  | reply (payload : Bytes)
  | replyHttp (body : Bytes) (code : Nat) (status : String) (headers : List (String × String))
  | replyClose
  | setMax (limit : Nat)
  | setParse (options : ParseOptions)
  | info
  | close

/-- Whether a step publishes through the connection. -/
def ConnStep.sends : ConnStep → Bool
  | .send .. | .deliver .. | .reply _ | .replyHttp .. | .replyClose => true
  | _ => false

/-- An open connection and the last request it received. -/
structure Handler where
  conn : Connection
  last : Option Request := none

namespace Handler

variable {τ : Type} [Transport τ]

/-- Answer the last request with `f`, or refuse when there is none. -/
def answering (h : Handler) (t : τ)
    (f : Request → Except Error Unit × τ) : Outcome × Option Handler × τ :=
  match h.last with
  | none => (.refused .noRequest, some h, t)
  | some r =>
    let (res, t) := f r
    (Outcome.ofUnit res, some h, t)

/-- Run a step on a connection; gives the outcome, the connection unless it closed, and the
transport. -/
def step (h : Handler) (t : τ) : ConnStep → Outcome × Option Handler × τ
  | .recv =>
    match h.conn.recv t with
    | (.ready r, t) => (.ok (.request r), some { h with last := some r }, t)
    | (.failed e, t) => (.failed e, some h, t)
    | (.idle, t) => (.refused .wouldBlock, some h, t)
  | .send s c p =>
    let (res, t) := h.conn.send t s c p
    (Outcome.ofUnit res, some h, t)
  | .deliver s ids p =>
    let (res, t) := h.conn.deliver t s ids p
    (Outcome.ofUnit res, some h, t)
  | .reply p => h.answering t fun r => h.conn.reply t r p
  | .replyHttp body code status headers =>
    h.answering t fun r => h.conn.replyHttp t r body code status headers
  | .replyClose => h.answering t fun r => h.conn.replyClose t r
  | .setMax limit => (.ok .done, some { h with conn := { h.conn with maxMessageBytes := limit } }, t)
  | .setParse o => (.ok .done, some { h with conn := { h.conn with options := o } }, t)
  | .info =>
    (.ok (.info h.conn.identity h.conn.inboundAddr h.conn.outboundAddr h.last.isSome), some h, t)
  | .close => (.ok .done, none, h.conn.close t)

end Handler

/-- The open connection with a number. -/
def handlerAt (hs : List (Option Handler)) (n : Nat) : Option Handler := (hs[n]?).bind id

/-- Whether some open connection pulls from an address. -/
def pullsFrom (hs : List (Option Handler)) (addr : String) : Bool :=
  hs.any fun h => match h with
    | some h => h.conn.inboundAddr == addr
    | none => false

end HandlerKit
